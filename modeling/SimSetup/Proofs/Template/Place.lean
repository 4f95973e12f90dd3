import SimSetup.Proofs.Template.Expansion
import SimSetup.Proofs.Template.Key
import SimSetup.Proofs.Text.Position

/-!
# Where tokens stand

The span of a token holds its lexeme, so the span of a fault holds what filling stopped at: a
placeholder, or a dollar sign without a meaning. The keys that the lexer finds are keys.
-/

namespace SimSetup.Template

open Text (Covers Span byteLength)

-- ---------------------------------------------------------------------------
-- Spans
-- ---------------------------------------------------------------------------

theorem mem_locate {offset : Nat} {ts : List Token} (h : (t, span) ∈ locate offset ts) :
    ∃ front back, ts = front ++ t :: back ∧
      span.start = offset + byteLength (front.flatMap Token.lexeme) ∧
      span.stop = span.start + t.width := by
  induction ts generalizing offset with
  | nil => simp [locate] at h
  | cons u ts ih =>
    rcases List.mem_cons.mp h with heq | h
    · cases heq
      exact ⟨[], ts, rfl, by simp, rfl⟩
    · obtain ⟨front, back, rfl, hstart, hstop⟩ := ih h
      refine ⟨u :: front, back, rfl, ?_, hstop⟩
      rw [hstart, List.flatMap_cons, Text.byteLength_append, Token.width, Nat.add_assoc]

theorem covers_of_mem_lex {template : String} (h : (t, span) ∈ lex template) :
    Covers template.toList span t.lexeme := by
  obtain ⟨front, back, htokens, hstart, hstop⟩ := mem_locate h
  have htext := flatMap_lexeme_tokens template.toList
  rw [htokens, List.flatMap_append, List.flatMap_cons, ← List.append_assoc] at htext
  refine ⟨_, _, htext.symm, ?_⟩
  cases span
  simp_all [Token.width]

-- ---------------------------------------------------------------------------
-- Faults
-- ---------------------------------------------------------------------------

section
variable {template : String} {bindings : Bindings} {fault : Fault}

theorem span_of_expand {e : Token × Span} (h : expand template bindings e = .error fault) :
    fault.span = e.2 := by
  rcases expand_cases template bindings e.1 e.2 with ⟨-, _, hok⟩ | ⟨-, hinvalid⟩ | ⟨_, -, -, hmissing⟩
  · cases hok.symm.trans h
  · cases hinvalid.symm.trans h
    rfl
  · cases hmissing.symm.trans h
    rfl

theorem exists_token (h : substitute template bindings = .error fault) :
    ∃ t, (t, fault.span) ∈ lex template ∧
      expand template bindings (t, fault.span) = .error fault := by
  obtain ⟨front, ⟨t, span⟩, back, hlex, -, hexpand⟩ := substitute_error_iff.mp h
  obtain rfl : fault.span = span := span_of_expand hexpand
  exact ⟨t, by simp [hlex], hexpand⟩

end

-- ---------------------------------------------------------------------------
-- Lexemes
-- ---------------------------------------------------------------------------

theorem lexeme_of_key {t : Token} (h : t.key? = some key) :
    t.lexeme = '$' :: key.toList ∨ t.lexeme = '$' :: '{' :: (key.toList ++ ['}']) := by
  cases t <;> cases h
  · exact .inl rfl
  · exact .inr rfl

theorem lexeme_of_meaningless {t : Token} (h : t.isMeaningful = false) :
    ∃ rest, t.lexeme = '$' :: rest := by
  cases t <;> cases h <;> exact ⟨_, rfl⟩

-- ---------------------------------------------------------------------------
-- Keys
-- ---------------------------------------------------------------------------

/-- The key that is written in the token, whether or not it asks for a value. -/
def Token.written? : Token → Option String
  | named key | braced key | unclosed key => some key
  | _ => none

theorem Token.written?_of_key {t : Token} (h : t.key? = some key) : t.written? = some key := by
  cases t <;> cases h <;> rfl

theorem isKey_of_afterDollar (h : (afterDollar cs).1.written? = some key) : IsKey key.toList := by
  revert h
  fun_cases afterDollar cs with
  | case2 _ _ _ hkey | case3 _ _ _ _ hkey | case5 _ _ _ _ _ hkey =>
    rintro ⟨⟩
    exact (key?_some hkey).1
  | case1 | case4 | case6 => rintro ⟨⟩

theorem isKey_of_mem_tokens {cs : List Char} (ht : t ∈ tokens cs) (h : t.written? = some key) :
    IsKey key.toList := by
  fun_induction tokens cs with
  | case1 => cases ht
  | case2 c cs ih =>
    rcases List.mem_cons.mp ht with rfl | ht
    · unfold next at h
      split at h
      · exact isKey_of_afterDollar h
      · cases h
    · exact ih ht

theorem isKey_of_mem_lex {template : String} (ht : (t, span) ∈ lex template)
    (h : t.written? = some key) : IsKey key.toList := by
  have hmem : t ∈ tokens template.toList := by
    rw [← map_fst_locate 0 (tokens template.toList)]
    exact List.mem_map_of_mem ht
  exact isKey_of_mem_tokens hmem h

end SimSetup.Template
