import Mathlib.Data.List.Nodup
import SimSetup.Text.Quoted
import SimSetup.Text.Segments

/-!
# Quoted text tells its text

A quotation is made of characters that can be shown, so it never runs over a line. It determines the
quoted text, because no character's escape begins another's: what is quoted can be read off from the
left.
-/

namespace SimSetup.Text

-- ---------------------------------------------------------------------------
-- Hexadecimal digits
-- ---------------------------------------------------------------------------

theorem exists_digit_of_mem_toDigits {base n : Nat} (hbase : 1 < base)
    (h : c ∈ Nat.toDigits base n) : ∃ d < base, c = Nat.digitChar d := by
  induction n using Nat.strongRecOn with
  | ind n ih =>
    rw [Nat.toDigits_eq_if hbase] at h
    split at h
    · next hlt => exact ⟨n, hlt, List.mem_singleton.mp h⟩
    · next hge =>
      rcases List.mem_append.mp h with hinit | hlast
      · exact ih (n / base) (Nat.div_lt_self (by omega) hbase) hinit
      · exact ⟨n % base, Nat.mod_lt _ (by omega), List.mem_singleton.mp hlast⟩

theorem digitChar_inj : ∀ d < 16, ∀ e < 16, Nat.digitChar d = Nat.digitChar e → d = e := by
  decide

/-- A number is its last digit and the number that the other digits write. -/
theorem toDigits_inj {m n : Nat} (h : Nat.toDigits 16 m = Nat.toDigits 16 n) : m = n := by
  induction m using Nat.strongRecOn generalizing n with
  | ind m ih =>
    have hlength (k : Nat) : (Nat.toDigits 16 (k / 16) ++ [Nat.digitChar (k % 16)]).length ≠ 1 := by
      simp [Nat.toDigits_ne_nil]
    rw [Nat.toDigits_eq_if (by decide), Nat.toDigits_eq_if (n := n) (by decide)] at h
    split at h <;> split at h
    · next hm hn => exact digitChar_inj m hm n hn (List.singleton_inj.mp h)
    · exact absurd (congrArg List.length h.symm) (hlength n)
    · exact absurd (congrArg List.length h) (hlength m)
    · obtain ⟨hinit, hlast⟩ := List.append_inj' h rfl
      have hdiv := ih (m / 16) (Nat.div_lt_self (by omega) (by decide)) hinit
      have hmod := digitChar_inj _ (Nat.mod_lt m (by decide)) _ (Nat.mod_lt n (by decide))
        (List.singleton_inj.mp hlast)
      omega

-- ---------------------------------------------------------------------------
-- One character
-- ---------------------------------------------------------------------------

def letters : List (Char × Char) :=
  [('\x00', '0'), ('\t', 't'), ('\n', 'n'), ('\r', 'r'), ('"', '"'), ('\\', '\\')]

inductive Escapes : Char → List Char → Prop
  | itself (hplain : isPlain c = true) (hc : c ≠ '\\') : Escapes c [c]
  | letter (h : (c, l) ∈ letters) : Escapes c ['\\', l]
  | code : Escapes c (codeEscape c)

theorem escapes_escape (c : Char) : Escapes c (escape c) := by
  fun_cases escape c
  case case7 hplain => exact .itself hplain ‹_›
  case case8 => exact .code
  all_goals exact .letter (by decide)

theorem brace_notMem_toDigits (n : Nat) : '\x7d' ∉ Nat.toDigits 16 n := by
  intro h
  obtain ⟨d, hd, heq⟩ := exists_digit_of_mem_toDigits (by decide) h
  exact absurd heq ((by decide : ∀ d < 16, '\x7d' ≠ Nat.digitChar d) d hd)

/-- No escape begins another: a letter names one character and is no `u`, and a code ends at its
brace. -/
theorem Escapes.inj {cs ds : List Char} (hc : Escapes c cs) (hd : Escapes d ds)
    (h : cs ++ a = ds ++ b) : c = d ∧ a = b := by
  have hletter {c l : Char} (hl : (c, l) ∈ letters) : l ≠ 'u' := by
    rintro rfl
    exact absurd (List.mem_map_of_mem hl) (by decide : 'u' ∉ letters.map Prod.snd)
  have hletters : (letters.map Prod.snd).Nodup := by decide
  cases hc <;> cases hd <;> simp only [codeEscape, List.cons_append, List.nil_append,
    List.append_assoc, List.cons.injEq] at h
  case itself.itself => exact h
  case itself.letter hne _ _ => exact absurd h.1 hne
  case itself.code hne => exact absurd h.1 hne
  case letter.itself hne => exact absurd h.1.symm hne
  case letter.letter hl _ hm =>
    exact ⟨congrArg Prod.fst (List.inj_on_of_nodup_map hletters hl hm h.2.1), h.2.2⟩
  case letter.code hl => exact absurd h.2.1 (hletter hl)
  case code.itself hne => exact absurd h.1.symm hne
  case code.letter hl => exact absurd h.2.1.symm (hletter hl)
  case code.code =>
    obtain ⟨hdigits, hrest⟩ := append_cons_inj (brace_notMem_toDigits _)
      (brace_notMem_toDigits _) h.2.2.2
    exact ⟨Char.toNat_inj.mp (toDigits_inj hdigits), hrest⟩

theorem Escapes.ne_nil {cs : List Char} (h : Escapes c cs) : cs ≠ [] := by
  cases h <;> simp [codeEscape]

theorem isPlain_of_mem_toDigits {n : Nat} (h : c ∈ Nat.toDigits 16 n) : isPlain c = true := by
  obtain ⟨d, hd, rfl⟩ := exists_digit_of_mem_toDigits (by decide) h
  exact (by decide : ∀ d < 16, isPlain (Nat.digitChar d) = true) d hd

theorem Escapes.isPlain {cs : List Char} (h : Escapes c cs) (hmem : d ∈ cs) :
    isPlain d = true := by
  cases h with
  | itself hplain =>
    rw [List.mem_singleton.mp hmem]
    exact hplain
  | letter h =>
    rcases List.mem_pair.mp hmem with rfl | rfl
    · rfl
    · exact List.all_eq_true.mp (by decide : letters.all (Text.isPlain ·.2) = true) _ h
  | code =>
    simp only [codeEscape, List.mem_append] at hmem
    rcases hmem with (hopening | hdigit) | hclosing
    · exact List.all_eq_true.mp
        (by decide : ['\\', 'u', '\x7b'].all Text.isPlain = true) d hopening
    · exact isPlain_of_mem_toDigits hdigit
    · rw [List.mem_singleton.mp hclosing]
      rfl

-- ---------------------------------------------------------------------------
-- Whole texts
-- ---------------------------------------------------------------------------

theorem flatMap_escape_inj {cs ds : List Char} (h : cs.flatMap escape = ds.flatMap escape) :
    cs = ds := by
  induction cs generalizing ds with
  | nil =>
    cases ds with
    | nil => rfl
    | cons d ds =>
      exact absurd (List.append_eq_nil_iff.mp h.symm).1 (escapes_escape d).ne_nil
  | cons c cs ih =>
    cases ds with
    | nil => exact absurd (List.append_eq_nil_iff.mp h).1 (escapes_escape c).ne_nil
    | cons d ds =>
      obtain ⟨rfl, hrest⟩ := (escapes_escape c).inj (escapes_escape d) h
      rw [ih hrest]

theorem toList_quoted (s : String) :
    (quoted s).toList = '"' :: (s.toList.flatMap escape ++ ['"']) :=
  String.toList_ofList

theorem quoted_inj (h : quoted s = quoted t) : s = t := by
  have hlists := congrArg String.toList h
  rw [toList_quoted, toList_quoted] at hlists
  have hescapes := List.append_cancel_right (List.cons.inj hlists).2
  exact String.toList_inj.mp (flatMap_escape_inj hescapes)

theorem isPlain_of_mem_quoted (h : c ∈ (quoted s).toList) : isPlain c = true := by
  rw [toList_quoted, List.mem_cons, List.mem_append, List.mem_singleton, List.mem_flatMap] at h
  rcases h with rfl | ⟨d, -, hescape⟩ | rfl
  · rfl
  · exact (escapes_escape d).isPlain hescape
  · rfl

theorem isPlain_feed : isPlain '\n' = false := by
  have hfirst : (0x0, 0x1f) ∈ unprintable := List.mem_toArray.mpr List.mem_cons_self
  have hunprintable : isUnprintable '\n' = true := by
    rw [isUnprintable, Ranges.contains, Array.any_eq_true']
    exact ⟨(0x0, 0x1f), hfirst, rfl⟩
  simp [isPlain, hunprintable]

theorem feed_notMem_quoted (s : String) : '\n' ∉ (quoted s).toList := fun h =>
  Bool.eq_false_iff.mp isPlain_feed (isPlain_of_mem_quoted h)

end SimSetup.Text
