import SimSetup.Proofs.Actions
import SimSetup.Proofs.Template.Place
import SimSetup.Proofs.Template.Scan

/-!
# One fault after another

Filling reports the leftmost fault. The text before it can be filled as it is; a value for a missing
key moves the fault behind the placeholder or removes it; and a dollar sign without a meaning stays
at fault whatever bindings are added.
-/

namespace SimSetup.Template

open Text (Covers before byteLength before_byteLength)

-- ---------------------------------------------------------------------------
-- Where a scan stops
-- ---------------------------------------------------------------------------

namespace Outcome

def start? : Outcome → Option Nat
  | filled _ => none
  | missing _ span => some span.start
  | invalid start _ _ => some start

@[simp] theorem start?_prepend (text : String) (o : Outcome) : (o.prepend text).start? = o.start? := by
  cases o <;> rfl

theorem start?_ofResult_error (fault : Fault) :
    (ofResult (.error fault)).start? = some fault.span.start := by
  cases fault <;> rfl

theorem prepend_eq_missing {o : Outcome} (h : o.prepend text = missing key span) :
    o = missing key span := by
  cases o <;> cases h
  rfl

end Outcome

section
variable {bindings : Bindings} {seen rest : List Char} {o : Outcome} {n : Nat}

theorem Scan.start_le (h : Scan bindings seen rest o) (hn : o.start? = some n) :
    byteLength seen ≤ n := by
  induction h with
  | done => cases hn
  | copy _ _ ih | escape _ ih | bound _ _ _ ih =>
    rw [Outcome.start?_prepend] at hn
    have hle := ih hn
    rw [Text.byteLength_append] at hle
    omega
  | unbound | invalid =>
    cases hn
    exact Nat.le_refl _

theorem Ends.cut (h : Ends (done ++ left)) : Ends done := by
  cases done with
  | nil => exact fun _ hc => nomatch hc
  | cons c done => exact h

theorem Placeholder.cut (h : Placeholder key occurrence (done ++ left)) :
    Placeholder key occurrence done := by
  cases h with
  | bare hkey hends => exact .bare hkey hends.cut
  | braced hkey => exact .braced hkey

/-- What stands before the place where a scan stops is filled on its own. -/
theorem Scan.cut (h : Scan bindings seen rest o) (hn : o.start? = some n) :
    ∃ done left text, rest = done ++ left ∧ byteLength (seen ++ done) = n ∧
      Scan bindings seen done (.filled text) := by
  -- each step up to the stop stays as it is; at the stop there is nothing left to read
  induction h with
  | done => cases hn
  | @copy c seen rest _ hc _ ih =>
    obtain ⟨done, left, text, rfl, hlength, hscan⟩ := ih ((Outcome.start?_prepend ..).symm.trans hn)
    exact ⟨c :: done, left, _, rfl, by simpa using hlength, .copy hc hscan⟩
  | escape _ ih =>
    obtain ⟨done, left, text, rfl, hlength, hscan⟩ := ih ((Outcome.start?_prepend ..).symm.trans hn)
    exact ⟨'$' :: '$' :: done, left, _, rfl, by simpa using hlength, .escape hscan⟩
  | @bound key occurrence rest _ _ _ hp hv _ ih =>
    obtain ⟨done, left, text, rfl, hlength, hscan⟩ := ih ((Outcome.start?_prepend ..).symm.trans hn)
    exact ⟨occurrence ++ done, left, _, by simp, by simpa using hlength, .bound hp.cut hv hscan⟩
  | unbound | invalid =>
    cases hn
    exact ⟨[], _, "", rfl, by simp, .done⟩

/-- With a value for the missing key the scan goes on behind the placeholder. -/
theorem Scan.resume {larger : Bindings} (h : Scan bindings seen rest (.missing key span))
    (hlarger : Extends larger bindings) (hvalue : larger[key]? = some value) :
    ∃ o, Scan larger seen rest o ∧ ∀ n, o.start? = some n → span.stop ≤ n := by
  generalize ho : Outcome.missing key span = o at h
  -- the bindings are larger all along, but only the placeholder that was missed is read anew
  induction h with
  | done => cases ho
  | copy hc _ ih =>
    obtain ⟨o, hscan, hstart⟩ := ih (Outcome.prepend_eq_missing ho.symm).symm
    exact ⟨_, .copy hc hscan, fun n hn => hstart n (by simpa using hn)⟩
  | escape _ ih =>
    obtain ⟨o, hscan, hstart⟩ := ih (Outcome.prepend_eq_missing ho.symm).symm
    exact ⟨_, .escape hscan, fun n hn => hstart n (by simpa using hn)⟩
  | bound hp hv _ ih =>
    obtain ⟨o, hscan, hstart⟩ := ih (Outcome.prepend_eq_missing ho.symm).symm
    exact ⟨_, .bound hp (hlarger _ _ hv) hscan, fun n hn => hstart n (by simpa using hn)⟩
  | @unbound _ occurrence rest seen hp =>
    cases ho
    obtain ⟨o, hscan⟩ := exists_scan larger (seen ++ occurrence) rest
    exact ⟨_, .bound hp hvalue hscan, fun n hn => hscan.start_le (by simpa using hn)⟩
  | invalid => cases ho

end

-- ---------------------------------------------------------------------------
-- Faults of filling
-- ---------------------------------------------------------------------------

theorem extends_insert {bindings : Bindings} (h : key ∉ bindings) (value : String) :
    Extends (bindings.insert key value) bindings := by
  intro k v hv
  have hne : key ≠ k := by
    rintro rfl
    exact h (Std.ExtTreeMap.mem_iff_isSome_getElem?.mpr (by simp [hv]))
  simp [Std.ExtTreeMap.getElem?_insert, hne, hv]

section
variable {template : String} {bindings : Bindings} {fault : Fault}

theorem scan_of_error (h : substitute template bindings = .error fault) :
    Scan bindings [] template.toList (.ofResult (.error fault)) := by
  obtain ⟨o, hscan⟩ := exists_scan bindings [] template.toList
  rwa [← h, hscan.ofResult_substitute]

theorem substitute_before (h : substitute template bindings = .error fault) :
    ∃ text, substitute (.ofList (before fault.span.start template.toList)) bindings = .ok text := by
  obtain ⟨done, left, text, htext, hlength, hdone⟩ :=
    (scan_of_error h).cut (Outcome.start?_ofResult_error fault)
  have hbefore : before fault.span.start template.toList = done := by
    rw [htext, ← hlength]
    exact before_byteLength done left
  rw [← @String.toList_ofList done] at hdone
  refine ⟨text, ?_⟩
  rw [hbefore]
  exact Outcome.ofResult_eq_filled.mp hdone.ofResult_substitute

theorem substitute_insert (h : substitute template bindings = .error (.missingKey key span))
    (value : String) : (∃ text, substitute template (bindings.insert key value) = .ok text) ∨
      ∃ later, substitute template (bindings.insert key value) = .error later ∧
        span.stop ≤ later.span.start := by
  obtain ⟨t, -, hexpand⟩ := exists_token h
  have hlarger := extends_insert (expand_missing hexpand).2 value
  obtain ⟨o, hresumed, hstart⟩ :=
    (scan_of_error h).resume hlarger Std.ExtTreeMap.getElem?_insert_self
  have ho := hresumed.ofResult_substitute
  cases hs : substitute template (bindings.insert key value) with
  | ok text => exact .inl ⟨text, rfl⟩
  | error later =>
    rw [hs] at ho
    subst ho
    exact .inr ⟨later, rfl, hstart _ (Outcome.start?_ofResult_error later)⟩

end

/-- The fault that filling reports is the leftmost: without the text from there on the template can
be filled. A missing key is the one of the placeholder in the span, and once it has a value, filling
succeeds or fails behind the placeholder. A dollar sign without a meaning is at fault with more
bindings just as well. -/
theorem substitute_error_leftmost {template : String} {bindings : Bindings} {fault : Fault}
    (h : substitute template bindings = .error fault) :
    (∃ text, substitute (.ofList (before fault.span.start template.toList)) bindings = .ok text) ∧
      (∀ key span, fault = .missingKey key span → key ∉ bindings ∧
        (Covers template.toList span ('$' :: key.toList) ∨
          Covers template.toList span ('$' :: '{' :: (key.toList ++ ['}']))) ∧
        ∀ value, (∃ text, substitute template (bindings.insert key value) = .ok text) ∨
          ∃ later, substitute template (bindings.insert key value) = .error later ∧
            span.stop ≤ later.span.start) ∧
      ∀ span position, fault = .invalidPlaceholder span position →
        Covers template.toList ⟨span.start, span.start + 1⟩ ['$'] ∧
        ∀ larger, Extends larger bindings →
          substitute template larger = .error (.invalidPlaceholder span position) := by
  obtain ⟨t, hmem, hexpand⟩ := exists_token h
  have hcovers := covers_of_mem_lex hmem
  refine ⟨substitute_before h, ?_, ?_⟩
  · rintro key span rfl
    obtain ⟨hkey, hnot⟩ := expand_missing hexpand
    refine ⟨hnot, ?_, substitute_insert h⟩
    rcases lexeme_of_key hkey with hlexeme | hlexeme
    · exact .inl (hlexeme ▸ hcovers)
    · exact .inr (hlexeme ▸ hcovers)
  · rintro span position rfl
    obtain ⟨rest, hlexeme⟩ := lexeme_of_meaningless (expand_invalid hexpand).1
    rw [hlexeme] at hcovers
    exact ⟨hcovers.first, fun larger hlarger =>
      (hlarger.substitute fun _ _ hmissing => nomatch h.symm.trans hmissing).trans h⟩

theorem substitute_error_leftmost_second : ∃ bindings : Bindings,
    substitute "é$a$b$" bindings = .error (.missingKey "b" ⟨4, 6⟩) ∧
      (∃ text, substitute "é$a" bindings = .ok text) ∧
      ∃ later, substitute "é$a$b$" (bindings.insert "b" "y") = .error later ∧
        6 ≤ later.span.start := by
  let bindings : Bindings := .ofList [("a", "x")]
  have herror : substitute "é$a$b$" bindings = .error (.missingKey "b" ⟨4, 6⟩) :=
    eq_error_of_fault? (by decide +kernel)
  obtain ⟨hbefore, hmissing, -⟩ := substitute_error_leftmost herror
  obtain ⟨-, -, hvalue⟩ := hmissing "b" ⟨4, 6⟩ rfl
  have hfails : (substitute "é$a$b$" (bindings.insert "b" "y")).toOption = none := by decide +kernel
  rcases hvalue "y" with ⟨text, hok⟩ | hlater
  · rw [hok] at hfails
    cases hfails
  · exact ⟨bindings, herror, hbefore, hlater⟩

end SimSetup.Template
