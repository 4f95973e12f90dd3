import Mathlib
import SimSetup.Proofs.Boundary.Construction
import SimSetup.Proofs.Snapshot.RoundTrip

/-!
# Boundaries from a document

A document is decoded as a whole before a boundary is built from it. Its records are then built one
after another, up to the first that is at fault. What a record lists as unset is a set, and only the
names without a value in the record count.
-/

namespace SimSetup.Snapshot

open Boundary (Attribute Attributes FirstMisfit LeastUnknown Misfit Value ofAttributes)

-- ---------------------------------------------------------------------------
-- Records one after another
-- ---------------------------------------------------------------------------

/-- The record at `index` is the first that builds no boundary, for `cause`. -/
def FirstFault (records : List Record) (index : Nat) (cause : Boundary.Fault) : Prop :=
  ∃ before r after, records = before ++ r :: after ∧ before.length = index ∧
    (∀ earlier ∈ before, ∃ b, earlier.build = .ok b) ∧ r.build = .error cause

section
variable {r : Record} {rs : List Record}

theorem buildFrom_cons_ok (h : r.build = .ok b) (start : Nat) :
    buildFrom start (r :: rs) = (buildFrom (start + 1) rs).map (b :: ·) := by
  rw [buildFrom, h]

theorem buildFrom_cons_error (h : r.build = .error cause) (start : Nat) :
    buildFrom start (r :: rs) = .error (.boundary start cause) := by
  rw [buildFrom, h]

theorem firstFault_cons_ok (h : r.build = .ok b) :
    FirstFault (r :: rs) index cause ↔ ∃ i, index = i + 1 ∧ FirstFault rs i cause := by
  constructor
  · rintro ⟨before, r', after, hrs, rfl, hbefore, hcause⟩
    cases before with
    | nil =>
      obtain ⟨rfl, -⟩ := List.cons.inj hrs
      rw [h] at hcause
      cases hcause
    | cons _ before =>
      obtain ⟨rfl, rfl⟩ := List.cons.inj hrs
      exact ⟨before.length, rfl, before, r', after, rfl, rfl,
        (List.forall_mem_cons.mp hbefore).2, hcause⟩
  · rintro ⟨_, rfl, before, r', after, rfl, rfl, hbefore, hcause⟩
    exact ⟨r :: before, r', after, rfl, rfl, List.forall_mem_cons.mpr ⟨⟨b, h⟩, hbefore⟩, hcause⟩

theorem firstFault_cons_error (h : r.build = .error cause) :
    FirstFault (r :: rs) index cause' ↔ index = 0 ∧ cause' = cause := by
  constructor
  · rintro ⟨before, r', after, hrs, rfl, hbefore, hcause⟩
    cases before with
    | nil =>
      obtain ⟨rfl, -⟩ := List.cons.inj hrs
      rw [h] at hcause
      cases hcause
      exact ⟨rfl, rfl⟩
    | cons _ before =>
      obtain ⟨rfl, -⟩ := List.cons.inj hrs
      obtain ⟨b, hb⟩ := hbefore _ List.mem_cons_self
      rw [h] at hb
      cases hb
  · rintro ⟨rfl, rfl⟩
    exact ⟨[], r, rs, rfl, rfl, nofun, h⟩

end

theorem map_cons_eq_ok_iff {x : Except Fault (List Boundary)} :
    x.map (b :: ·) = .ok bs ↔ ∃ rest, x = .ok rest ∧ bs = b :: rest := by
  cases x <;> simp [Except.map, eq_comm]

theorem map_cons_eq_error_iff {x : Except Fault (List Boundary)} :
    x.map (b :: ·) = .error fault ↔ x = .error fault := by
  cases x <;> simp [Except.map]

theorem buildFrom_eq_ok_iff {rs : List Record} :
    buildFrom start rs = .ok bs ↔ List.Forall₂ (fun r b => r.build = .ok b) rs bs := by
  induction rs generalizing start bs with
  | nil => simp [buildFrom, eq_comm]
  | cons r rs ih =>
    rw [List.forall₂_cons_left_iff]
    cases hr : r.build with
    | error cause => simp [buildFrom_cons_error hr]
    | ok b =>
      rw [buildFrom_cons_ok hr, map_cons_eq_ok_iff]
      simp only [ih]
      constructor
      · rintro ⟨rest, hrest, rfl⟩
        exact ⟨b, rest, rfl, hrest, rfl⟩
      · rintro ⟨_, rest, ⟨⟩, hrest, rfl⟩
        exact ⟨rest, hrest, rfl⟩

theorem buildFrom_eq_error_iff {rs : List Record} : buildFrom start rs = .error fault ↔
    ∃ index cause, FirstFault rs index cause ∧ fault = .boundary (start + index) cause := by
  induction rs generalizing start with
  | nil =>
    refine iff_of_false nofun ?_
    rintro ⟨_, _, ⟨before, r, after, hrs, -⟩, -⟩
    simp at hrs
  | cons r rs ih =>
    cases hr : r.build with
    | error cause => simp [buildFrom_cons_error hr, firstFault_cons_error hr, eq_comm]
    | ok b =>
      rw [buildFrom_cons_ok hr, map_cons_eq_error_iff, ih]
      simp only [firstFault_cons_ok hr]
      constructor
      · rintro ⟨i, cause, hfirst, rfl⟩
        exact ⟨i + 1, cause, ⟨i, rfl, hfirst⟩, by rw [Nat.succ_add_eq_add_succ]⟩
      · rintro ⟨_, cause, ⟨i, rfl, hfirst⟩, rfl⟩
        exact ⟨i, cause, hfirst, by rw [Nat.succ_add_eq_add_succ]⟩

theorem read_of_decode (h : (Toml.read text).bind decode = some records) :
    read text = build records := by
  rw [read, readWith, toml, h]

theorem read_of_decode_none (h : (Toml.read text).bind decode = none) :
    read text = .error .unreadable := by
  rw [read, readWith, toml, h]

-- ---------------------------------------------------------------------------
-- What a record gives
-- ---------------------------------------------------------------------------

/-- `given` has the attributes of the record as they are, and nothing as the value of each name that
is only listed as unset. -/
structure Record.Completed (r : Record) (given : Attributes) : Prop where
  explicit : ∀ (key : String) (v : Value), r.attributes[key]? = some v → given[key]? = some v
  unset : ∀ key ∈ r.unset, key ∉ r.attributes → given[key]? = some .none
  others : ∀ key, key ∉ r.attributes → key ∉ r.unset → key ∉ given

theorem Record.completed_given (r : Record) : r.Completed r.given where
  explicit key v hv := by rw [getElem?_given, hv]; rfl
  unset key hkey hnot := by
    rw [getElem?_given, Std.ExtTreeMap.getElem?_eq_none hnot, if_pos hkey]
    rfl
  others key hnot hkey := by
    rw [Std.ExtTreeMap.mem_iff_isSome_getElem?, getElem?_given,
      Std.ExtTreeMap.getElem?_eq_none hnot, if_neg hkey]
    exact Bool.false_ne_true

theorem Record.Completed.getElem? {r : Record} {given : Attributes} (h : r.Completed given)
    (key : String) :
    given[key]? = r.attributes[key]?.or (if key ∈ r.unset then some .none else none) := by
  cases hv : r.attributes[key]? with
  | some v => exact h.explicit key v hv
  | none =>
    have hnot : key ∉ r.attributes := by simpa using hv
    split
    · next hkey => exact h.unset key hkey hnot
    · next hkey => exact Std.ExtTreeMap.getElem?_eq_none (h.others key hnot hkey)

theorem Record.Completed.build {r : Record} {given : Attributes} (h : r.Completed given) :
    r.build = ofAttributes r.kind given := by
  have hgiven : r.given = given :=
    Std.ExtTreeMap.ext_getElem? fun key => by rw [h.getElem?, r.completed_given.getElem?]
  rw [Record.build, hgiven]

section
variable {r : Record}

/-- Of the names listed as unset only those without a value count, and of these neither the order
nor the repetition. -/
theorem build_unset (h : ∀ name, name ∉ r.attributes → (name ∈ unset ↔ name ∈ r.unset)) :
    ({ r with unset } : Record).build = r.build := by
  have hcompleted : ({ r with unset } : Record).Completed r.given := by
    refine ⟨r.completed_given.explicit, fun key hkey hnot => ?_, fun key hnot hkey => ?_⟩
    · exact r.completed_given.unset key ((h key hnot).mp hkey) hnot
    · exact r.completed_given.others key hnot (mt (h key hnot).mpr hkey)
  exact hcompleted.build

theorem mem_given_of_mem_unset (h : name ∈ r.unset) : name ∈ r.given := by
  rw [Std.ExtTreeMap.mem_iff_isSome_getElem?, getElem?_given, if_pos h]
  cases r.attributes[name]? <;> rfl

theorem build_unknown (h : name ∈ r.unset) (hunknown : r.kind.recognizes name = false) :
    ∃ key, LeastUnknown r.kind r.given key ∧ r.build = .error (.unexpected r.kind key) :=
  Boundary.ofAttributes_of_unknown ⟨name, mem_given_of_mem_unset h, hunknown⟩

theorem misfit_of_none {given : Attributes} (ha : a ∈ [Attribute.centre, .normal, .radius])
    (h : given[a.label]? = some .none) : Misfit given a := by
  refine ⟨.none, h, fun w hw => ?_⟩
  cases hw <;> simp at ha

theorem build_without_geometry (ha : a ∈ [Attribute.centre, .normal, .radius])
    (hunset : a.label ∈ r.unset) (hnot : a.label ∉ r.attributes)
    (hknown : ∀ key ∈ r.given, r.kind.recognizes key = true) :
    ∃ first, FirstMisfit r.kind r.given first ∧ r.build = .error first.refusal := by
  have hmisfit := misfit_of_none ha (r.completed_given.unset a.label hunset hnot)
  refine Boundary.ofAttributes_of_misfit hknown ⟨a, ?_, hmisfit⟩
  exact Boundary.mem_attributes_iff.mpr (by rintro rfl; simp at ha)

end

/-- The boundaries of a document are those of its records in order, and if there are some that build
none the first is at fault. A record builds what its attributes do when each name that is only
listed as unset is given nothing; so a value that is there wins, the listed names are a set, one
that the kind does not have is unexpected, and the place, the orientation and the radius cannot be
unset. -/
theorem read_records {records : List Record} (h : (Toml.read text).bind decode = some records) :
    ((∃ bs, read text = .ok bs) ↔ ∀ r ∈ records, ∃ b, r.build = .ok b) ∧
      (∀ bs, read text = .ok bs ↔ List.Forall₂ (fun r b => r.build = .ok b) records bs) ∧
      (∀ fault, read text = .error fault ↔
        ∃ index cause, FirstFault records index cause ∧ fault = .boundary index cause) ∧
      ∀ r : Record,
        (r.Completed r.given ∧ ∀ given, r.Completed given → r.build = ofAttributes r.kind given) ∧
        (∀ unset, (∀ name, name ∉ r.attributes → (name ∈ unset ↔ name ∈ r.unset)) →
          ({ r with unset } : Record).build = r.build) ∧
        (∀ name ∈ r.unset, r.kind.recognizes name = false →
          ∃ key, LeastUnknown r.kind r.given key ∧ r.build = .error (.unexpected r.kind key)) ∧
        ∀ a ∈ [Attribute.centre, .normal, .radius], a.label ∈ r.unset → a.label ∉ r.attributes →
          (∀ key ∈ r.given, r.kind.recognizes key = true) →
            ∃ first, FirstMisfit r.kind r.given first ∧
              r.build = .error (.invalid first.label first.shape) := by
  simp only [read_of_decode h, build, buildFrom_eq_ok_iff, buildFrom_eq_error_iff,
    exists_forall₂_iff, Nat.zero_add, implies_true, true_and]
  intro r
  exact ⟨⟨r.completed_given, fun given hgiven => hgiven.build⟩, fun unset => build_unset,
    fun name => build_unknown, fun a => build_without_geometry⟩

theorem read_records_unset : ∃ text, text = "[[iolets]]\nkind = \"plain\"\n\n" ++
      "[[iolets]]\nkind = \"outlet\"\nunset = [\"Pressure\", \"Colour\", \"Pressure\"]\n" ∧
    read text = .error (.boundary 1 (.unexpected .outlet "Colour")) := by
  let text := "[[iolets]]\nkind = \"plain\"\n\n" ++
    "[[iolets]]\nkind = \"outlet\"\nunset = [\"Pressure\", \"Colour\", \"Pressure\"]\n"
  let names := ["Pressure", "Colour", "Pressure"]
  let plain : Record := { kind := .plain, unset := [], attributes := ∅ }
  let outlet : Record := { kind := .outlet, unset := names, attributes := ∅ }
  have htext : Toml.read text = some [("iolets", .array [.table [("kind", .string "plain")],
      .table [("kind", .string "outlet"), ("unset", .array (names.map .string))]])] := by
    dsimp only [text, names]
    cbv
  have hrecords : (Toml.read text).bind decode = some [plain, outlet] := by
    rw [htext]
    rfl
  obtain ⟨-, -, herror, hrecord⟩ := read_records hrecords
  obtain ⟨⟨hcompleted, -⟩, -, hunexpected, -⟩ := hrecord outlet
  obtain ⟨key, hleast, hbuild⟩ := hunexpected "Colour" (by simp [outlet, names]) rfl
  have hkey : key ∈ names := by
    by_contra hnot
    exact hcompleted.others key Std.ExtTreeMap.not_mem_empty hnot hleast.mem
  obtain rfl : key = "Colour" := by
    have hunknown := hleast.unknown
    simp only [names, List.mem_cons, List.not_mem_nil, or_false] at hkey
    rcases hkey with rfl | rfl | rfl
    · exact absurd hunknown (by decide)
    · rfl
    · exact absurd hunknown (by decide)
  refine ⟨text, rfl, (herror _).mpr ⟨1, _, ⟨[plain], outlet, [], rfl, rfl, ?_, hbuild⟩, rfl⟩⟩
  intro earlier hearlier
  rw [List.mem_singleton.mp hearlier]
  exact ⟨_, rfl⟩

end SimSetup.Snapshot
