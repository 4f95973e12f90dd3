import SimSetup.Proofs.Actions
import SimSetup.Proofs.Report.Location
import SimSetup.Proofs.Template.Place
import SimSetup.Template.Report

/-!
# Whether a report points at the fault

The span of a fault counts bytes, and the report takes its numbers for numbers of characters. These
are the same when the text before the fault is ASCII; after any other character the report names
another place, or shows nothing of the template.
-/

namespace SimSetup.Template

open Report (Names isBreak names_report_iff not_mem_append not_mem_toString place?_covered_iff)

-- ---------------------------------------------------------------------------
-- Characters of tokens and messages
-- ---------------------------------------------------------------------------

theorem KeyPart.ascii (h : KeyPart c) : c.toNat < 128 := by
  simp only [KeyPart, KeyStart, Char.le_def, UInt32.le_iff_toNat_le] at h
  rcases h with (rfl | ⟨-, h⟩ | ⟨-, h⟩) | ⟨-, h⟩
  · decide
  all_goals exact Nat.lt_of_le_of_lt h (by decide)

theorem KeyPart.ne_feed (h : KeyPart c) : c ≠ '\n' := by
  rintro rfl
  exact absurd (isKeyPart_iff.mpr h) (by decide)

theorem IsKey.part (h : IsKey key) : ∀ c ∈ key, KeyPart c := by
  cases h with
  | intro hc hcs => exact List.forall_mem_cons.mpr ⟨.inl hc, hcs⟩

theorem IsKey.ascii (h : IsKey key) : ∀ c ∈ key, c.toNat < 128 :=
  fun c hc => (h.part c hc).ascii

theorem ascii_lexeme {t : Token} (hkeys : ∀ key, t.written? = some key → IsKey key.toList)
    (h : t.isMeaningful = false ∨ ∃ key, t.key? = some key) : ∀ c ∈ t.lexeme, c.toNat < 128 := by
  cases t with
  | text | escape => rcases h with h | ⟨_, h⟩ <;> cases h
  | stray => simp [Token.lexeme]
  | named key | braced key | unclosed key =>
    have hkey := (hkeys key rfl).ascii
    simp only [Token.lexeme, List.forall_mem_cons, List.forall_mem_append]
    simpa using hkey

section
variable {template : String} {bindings : Bindings} {fault : Fault}

theorem not_feed_mem_message (h : substitute template bindings = .error fault) :
    '\n' ∉ fault.message.toList := by
  cases fault with
  | missingKey key span =>
    obtain ⟨t, hmem, hexpand⟩ := exists_token h
    have hkey := isKey_of_mem_lex hmem (Token.written?_of_key (expand_missing hexpand).1)
    have hfeed : '\n' ∉ key.toList := fun hfeed => (hkey.part _ hfeed).ne_feed rfl
    exact not_mem_append (not_mem_append (by decide +kernel) hfeed) (by decide +kernel)
  | invalidPlaceholder span position =>
    have hline : '\n' ∉ (toString position.line).toList := not_mem_toString rfl _
    have hcolumn : '\n' ∉ (toString position.column).toList := not_mem_toString rfl _
    exact not_mem_append (not_mem_append (not_mem_append (by decide +kernel) hline)
      (by decide +kernel)) hcolumn

theorem exists_faulty (h : substitute template bindings = .error fault) : ∃ faulty,
    faulty ≠ [] ∧ (∀ c ∈ faulty, c.toNat < 128) ∧ Text.Covers template.toList fault.span faulty := by
  obtain ⟨t, hmem, hexpand⟩ := exists_token h
  have hfaulty : t.isMeaningful = false ∨ ∃ key, t.key? = some key := by
    rcases expand_cases template bindings t fault.span with ⟨-, _, hok⟩ | ⟨hm, -⟩ | ⟨key, hkey, -⟩
    · cases hok.symm.trans hexpand
    · exact .inl hm
    · exact .inr ⟨key, hkey⟩
  refine ⟨t.lexeme, ?_, ascii_lexeme (fun key => isKey_of_mem_lex hmem) hfaulty,
    covers_of_mem_lex hmem⟩
  rcases hfaulty with hm | ⟨key, hkey⟩
  · obtain ⟨rest, hlexeme⟩ := lexeme_of_meaningless hm
    simp [hlexeme]
  · rcases lexeme_of_key hkey with hlexeme | hlexeme <;> simp [hlexeme]

theorem position_of_invalid {position : Text.Position}
    (h : substitute template bindings = .error (.invalidPlaceholder span position)) :
    position = Text.position template.toList span.start := by
  obtain ⟨t, -, hexpand⟩ := exists_token h
  cases (expand_of_meaningless (expand_invalid hexpand).1 span).symm.trans hexpand
  rfl

end

/-- The report names the place of the fault just when the text before it is ASCII; the message of a
dollar sign without a meaning names it always. -/
theorem report_names_fault_iff {template : String} {bindings : Bindings} {fault : Fault}
    (file : String) (hfeeds : ∀ c ∈ template.toList, isBreak c = true → c = '\n')
    (h : substitute template bindings = .error fault) :
    (Names (fault.report template file) file (Text.position template.toList fault.span.start) ↔
      ∀ c ∈ Text.before fault.span.start template.toList, c.toNat < 128) ∧
    ∀ span position, fault = .invalidPlaceholder span position → fault.message =
      "invalid placeholder at line " ++ toString (Text.position template.toList span.start).line
        ++ ", column " ++ toString (Text.position template.toList span.start).column := by
  have hheading : '\n' ∉ (Report.paint .fault "Error:" ++ " " ++ fault.message).toList :=
    not_mem_append (by decide +kernel) (not_feed_mem_message h)
  obtain ⟨faulty, hne, hascii, hcovers⟩ := exists_faulty h
  constructor
  · rw [Fault.report, names_report_iff hheading]
    exact place?_covered_iff hfeeds hcovers hne hascii
  · rintro span position rfl
    obtain rfl := position_of_invalid h
    rfl

theorem report_names_fault_second_line : ∃ fault, substitute "a\n $ é" ∅ = .error fault ∧
    Names (fault.report "a\n $ é" "job") "job" ⟨2, 2⟩ ∧
      fault.message = "invalid placeholder at line 2, column 2" := by
  have herror : substitute "a\n $ é" ∅ = .error (.invalidPlaceholder ⟨3, 4⟩ ⟨2, 2⟩) :=
    eq_error_of_fault? (by decide +kernel)
  have hascii : ∀ c ∈ Text.before 3 "a\n $ é".toList, c.toNat < 128 := by
    have hbefore : Text.before 3 "a\n $ é".toList = ['a', '\n', ' '] := by decide +kernel
    rw [hbefore]
    simp
  obtain ⟨hnames, hmessage⟩ := report_names_fault_iff "job" (by simp [isBreak]) herror
  exact ⟨_, herror, hnames.mpr hascii, hmessage _ _ rfl⟩

/-- The letter has two bytes, so that the report names the column behind the fault. -/
theorem report_not_at_fault : ¬ ∀ (template : String) (bindings : Bindings) (fault : Fault)
    (file : String), (∀ c ∈ template.toList, isBreak c = true → c = '\n') →
    substitute template bindings = .error fault →
    Names (fault.report template file) file
      (Text.position template.toList fault.span.start) := by
  intro h
  have herror : substitute "é$ x" ∅ = .error (.invalidPlaceholder ⟨2, 3⟩ ⟨1, 2⟩) :=
    eq_error_of_fault? (by decide +kernel)
  have hnames := h "é$ x" ∅ _ "job" (by simp [isBreak]) herror
  rw [Fault.report, names_report_iff (by decide +kernel)] at hnames
  have hplace : Report.place? "é$ x".toList 2 = some ⟨1, 3⟩ := by decide +kernel
  cases hplace.symm.trans hnames.1

end SimSetup.Template
