import SimSetup.Template.Token

/-!
# What a dollar sign opens

Keys are described by the ranges of their characters. After a dollar sign stands another one, a key
as long as it goes, a key in braces, or something that has no meaning; the lexer tells these apart.
-/

namespace SimSetup.Template

def KeyStart (c : Char) : Prop := c = '_' ∨ ('A' ≤ c ∧ c ≤ 'Z') ∨ ('a' ≤ c ∧ c ≤ 'z')

def KeyPart (c : Char) : Prop := KeyStart c ∨ ('0' ≤ c ∧ c ≤ '9')

inductive IsKey : List Char → Prop
  | intro (hc : KeyStart c) (hcs : ∀ d ∈ cs, KeyPart d) : IsKey (c :: cs)

/-- No key that ends here could go on. -/
def Ends (rest : List Char) : Prop := ∀ c, rest.head? = some c → ¬ KeyPart c

theorem isKeyStart_iff : isKeyStart c = true ↔ KeyStart c := by
  have hletter : c.isAlpha =
    (decide ('A'.val ≤ c.val ∧ c.val ≤ 'Z'.val) ||
      decide ('a'.val ≤ c.val) && decide (c.val ≤ 'z'.val)) := rfl
  simp only [isKeyStart, KeyStart, hletter, Bool.or_eq_true, Bool.and_eq_true, decide_eq_true_eq,
    Char.le_def]
  constructor
  · rintro ((⟨h₁, h₂⟩ | ⟨h₁, h₂⟩) | h)
    · exact .inr (.inl ⟨h₁, h₂⟩)
    · exact .inr (.inr ⟨h₁, h₂⟩)
    · exact .inl h
  · rintro (h | ⟨h₁, h₂⟩ | ⟨h₁, h₂⟩)
    · exact .inr h
    · exact .inl (.inl ⟨h₁, h₂⟩)
    · exact .inl (.inr ⟨h₁, h₂⟩)

theorem isKeyPart_iff : isKeyPart c = true ↔ KeyPart c := by
  have hstart := isKeyStart_iff (c := c)
  simp only [isKeyStart, Bool.or_eq_true, decide_eq_true_eq] at hstart
  simp only [isKeyPart, KeyPart, ← hstart, Char.isAlphanum, Char.isDigit, Bool.or_eq_true,
    Bool.and_eq_true, decide_eq_true_eq, Char.le_def]
  constructor
  · rintro ((h | ⟨h₁, h₂⟩) | h)
    · exact .inl (.inl h)
    · exact .inr ⟨h₁, h₂⟩
    · exact .inl (.inr h)
  · rintro ((h | h) | ⟨h₁, h₂⟩)
    · exact .inl (.inl h)
    · exact .inr h
    · exact .inl (.inr ⟨h₁, h₂⟩)

-- ---------------------------------------------------------------------------
-- The longest key
-- ---------------------------------------------------------------------------

theorem key?_append (hkey : IsKey key) (hends : Ends rest) :
    key? (key ++ rest) = some (.ofList key, rest) := by
  cases hkey with
  | @intro c cs hc hcs =>
    have hall : ∀ d ∈ cs, isKeyPart d = true := fun d hd => isKeyPart_iff.mpr (hcs d hd)
    have hrest : rest.takeWhile isKeyPart = [] ∧ rest.dropWhile isKeyPart = rest := by
      cases rest with
      | nil => exact ⟨rfl, rfl⟩
      | cons d rest =>
        have hd : isKeyPart d = false :=
          Bool.eq_false_iff.mpr fun hd => hends d rfl (isKeyPart_iff.mp hd)
        simp [hd]
    rw [List.cons_append, key?, if_pos (isKeyStart_iff.mpr hc), List.takeWhile_append_of_pos hall,
      List.dropWhile_append_of_pos hall, hrest.1, hrest.2, List.append_nil]

theorem key?_some (h : key? cs = some (key, rest)) :
    IsKey key.toList ∧ key.toList ++ rest = cs ∧ Ends rest := by
  have happ := toList_append_of_key? h
  cases cs with
  | nil => simp [key?] at h
  | cons c cs =>
    simp only [key?, Option.ite_none_right_eq_some, Option.some.injEq, Prod.mk.injEq] at h
    obtain ⟨hc, rfl, rfl⟩ := h
    refine ⟨?_, happ, fun d hd hpart => ?_⟩
    · rw [String.toList_ofList]
      refine .intro (isKeyStart_iff.mp hc) fun d hd => ?_
      exact isKeyPart_iff.mp (List.all_eq_true.mp List.all_takeWhile d hd)
    · have hnot := List.head?_dropWhile_not isKeyPart cs
      rw [hd] at hnot
      exact Bool.eq_false_iff.mp hnot (isKeyPart_iff.mpr hpart)

-- ---------------------------------------------------------------------------
-- Dollar signs
-- ---------------------------------------------------------------------------

/-- `Placeholder key occurrence rest`: before `rest`, `occurrence` asks for the value of `key`. -/
inductive Placeholder : (key occurrence rest : List Char) → Prop
  | bare (hkey : IsKey key) (hends : Ends rest) : Placeholder key ('$' :: key) rest
  | braced (hkey : IsKey key) : Placeholder key ('$' :: '{' :: (key ++ ['}'])) rest

theorem Placeholder.occurrence_ne_nil (h : Placeholder key occurrence rest) : occurrence ≠ [] := by
  cases h <;> exact List.cons_ne_nil _ _

theorem ends_brace (rest : List Char) : Ends ('}' :: rest) := by
  rintro c ⟨⟩ hpart
  exact absurd (isKeyPart_iff.mpr hpart) (by decide)

theorem afterDollar_bare (hkey : IsKey key) (hends : Ends rest) :
    afterDollar (key ++ rest) = (.named (.ofList key), rest) := by
  have hread := key?_append hkey hends
  cases hkey with
  | @intro c cs hc hcs =>
    have hdollar : c ≠ '$' := by rintro rfl; exact absurd (isKeyStart_iff.mpr hc) (by decide)
    have hbrace : c ≠ '{' := by rintro rfl; exact absurd (isKeyStart_iff.mpr hc) (by decide)
    unfold afterDollar
    split
    · simp_all
    · simp_all
    · rw [hread]

theorem afterDollar_braced (hkey : IsKey key) (rest : List Char) :
    afterDollar ('{' :: (key ++ '}' :: rest)) = (.braced (.ofList key), rest) := by
  rw [afterDollar, key?_append hkey (ends_brace rest)]
  rfl

theorem next_dollar (cs : List Char) : next '$' cs = afterDollar cs := if_pos rfl

theorem Placeholder.tokens (h : Placeholder key occurrence rest) :
    ∃ t, t.key? = some (.ofList key) ∧ t.lexeme = occurrence ∧
      tokens (occurrence ++ rest) = t :: tokens rest := by
  cases h with
  | bare hkey hends =>
    refine ⟨.named (.ofList key), rfl, by simp [Token.lexeme], ?_⟩
    rw [List.cons_append, Template.tokens, next_dollar, afterDollar_bare hkey hends]
  | braced hkey =>
    refine ⟨.braced (.ofList key), rfl, by simp [Token.lexeme], ?_⟩
    have happ : '$' :: '{' :: (key ++ ['}']) ++ rest = '$' :: '{' :: (key ++ '}' :: rest) := by simp
    rw [happ, Template.tokens, next_dollar, afterDollar_braced hkey]

/-- A dollar sign before `cs` has no meaning. -/
def Meaningless (cs : List Char) : Prop :=
  cs.head? ≠ some '$' ∧
    ∀ key occurrence rest, Placeholder key occurrence rest → '$' :: cs ≠ occurrence ++ rest

theorem Meaningless.afterDollar (h : Meaningless cs) :
    (afterDollar cs).1 = .stray ∨ ∃ key, (afterDollar cs).1 = .unclosed key := by
  fun_cases Template.afterDollar cs with
  | case1 cs => exact absurd rfl h.1
  | case2 cs key rest hkey =>
    obtain ⟨hk, happ, -⟩ := key?_some hkey
    exact absurd (by simp [← happ]) (h.2 _ _ rest (.braced hk))
  | case3 => exact .inr ⟨_, rfl⟩
  | case4 => exact .inl rfl
  | case5 cs _ _ key rest hkey =>
    obtain ⟨hk, happ, hends⟩ := key?_some hkey
    exact absurd (by simp [← happ]) (h.2 _ _ rest (.bare hk hends))
  | case6 => exact .inl rfl

end SimSetup.Template
