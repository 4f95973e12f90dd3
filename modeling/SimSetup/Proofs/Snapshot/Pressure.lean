import SimSetup.Proofs.Snapshot.Assembly
import SimSetup.Proofs.Snapshot.Reading

/-!
# Pressures from a document

Whatever is read for a pressure is one as it is: the boundary that is built holds it unchanged, and
no document is refused for a pressure. What cannot be read at all makes the whole document
unreadable.
-/

namespace SimSetup.Snapshot

open Boundary (Attribute Attributes Value ofAttributes)
open Boundary.Value (Readable)
open Record (isAttributeKey)

-- ---------------------------------------------------------------------------
-- The entries of a record
-- ---------------------------------------------------------------------------

def Unset (entries : Toml.Table) (name : String) : Prop :=
  ∃ names, entries.lookup Record.unsetKey = some (.array names) ∧ .string name ∈ names

structure Decoded (entries : Toml.Table) (r : Record) : Prop where
  unset : ∀ name, name ∈ r.unset ↔ Unset entries name
  value : ∀ (key : String) (v : Value), r.attributes[key]? = some v →
    ∃ t, (key, t) ∈ entries ∧ Value.decode t = some v
  read : ∀ key t, (key, t) ∈ entries → isAttributeKey key = true → key ∈ r.attributes ∧ Readable t

theorem mem_decodeUnset_iff (h : Record.decodeUnset t = some names) :
    name ∈ names ↔ ∃ items, t = some (.array items) ∧ .string name ∈ items := by
  unfold Record.decodeUnset at h
  split at h
  · cases h
    simp
  · rename_i items
    rw [mem_mapM_iff h]
    constructor
    · rintro ⟨item, hitem, hname⟩
      split at hname
      · cases hname
        exact ⟨items, rfl, hitem⟩
      · cases hname
    · rintro ⟨_, ⟨⟩, hitem⟩
      exact ⟨_, hitem, rfl⟩
  · cases h

theorem decodeEntry_eq_some_iff :
    Record.decodeEntry e = some (key, v) ↔ ∃ t, e = (key, t) ∧ Value.decode t = some v := by
  obtain ⟨key', t⟩ := e
  simp only [Record.decodeEntry, Option.map_eq_some_iff, Prod.mk.injEq]
  constructor
  · rintro ⟨_, hv, rfl, rfl⟩
    exact ⟨t, ⟨rfl, rfl⟩, hv⟩
  · rintro ⟨_, ⟨rfl, rfl⟩, hv⟩
    exact ⟨v, hv, rfl, rfl⟩

theorem mem_of_getElem?_ofList {entries : List (String × Value)} {key : String}
    (h : (Std.ExtTreeMap.ofList entries)[key]? = some v) : (key, v) ∈ entries := by
  -- of several entries with the key the last one counts
  rw [Std.ExtTreeMap.ofList_eq_insertMany_empty, Std.ExtTreeMap.getElem?_insertMany_list,
    Std.ExtTreeMap.getElem?_empty, Option.or_none, List.findSomeRev?_eq_findSome?_reverse] at h
  obtain ⟨⟨key', v'⟩, he, hfound⟩ := List.exists_of_findSome?_eq_some h
  simp only [Option.ite_none_right_eq_some, Option.some.injEq] at hfound
  obtain ⟨hkey, rfl⟩ := hfound
  obtain rfl := Std.LawfulEqCmp.eq_of_compare hkey
  exact List.mem_reverse.mp he

theorem decoded_of_decode (h : Record.decode item = some r) :
    ∃ entries, item = .table entries ∧ Decoded entries r := by
  unfold Record.decode at h
  split at h
  · rename_i entries
    simp only [bind, Option.bind_eq_some_iff, pure, Option.some.injEq] at h
    obtain ⟨kind, -, unset, hunset, attributes, hattributes, rfl⟩ := h
    refine ⟨entries, rfl, fun name => mem_decodeUnset_iff hunset, fun key v hv => ?_,
      fun key t ht hkey => ?_⟩
    · obtain ⟨e, he, hdecode⟩ := (mem_mapM_iff hattributes).mp (mem_of_getElem?_ofList hv)
      obtain ⟨t, rfl, hv⟩ := decodeEntry_eq_some_iff.mp hdecode
      exact ⟨t, List.mem_of_mem_filter he, hv⟩
    · have he : (key, t) ∈ entries.filter (isAttributeKey ·.1) := List.mem_filter.mpr ⟨ht, hkey⟩
      obtain ⟨⟨key', v⟩, hdecode⟩ := exists_mapM_iff.mp ⟨attributes, hattributes⟩ _ he
      have hmem := (mem_mapM_iff hattributes).mpr ⟨_, he, hdecode⟩
      obtain ⟨_, ⟨⟩, hv⟩ := decodeEntry_eq_some_iff.mp hdecode
      refine ⟨?_, Value.readable_iff.mpr ⟨v, hv⟩⟩
      rw [Std.ExtTreeMap.mem_ofList, List.contains_iff_mem]
      exact List.mem_map_of_mem hmem
  · cases h

-- ---------------------------------------------------------------------------
-- The pressure of a record
-- ---------------------------------------------------------------------------

/-- Where the pressure of a boundary that was built from the table comes from. -/
inductive PressureRead (entries : Toml.Table) (b : Boundary) : Prop
  | given (h : (Attribute.pressure.label, t) ∈ entries) (hv : Value.decode t = some v)
    (hb : b.pressure = some v)
  | unset (h : Attribute.pressure.label ∉ entries.map Prod.fst)
    (hunset : Unset entries Attribute.pressure.label) (hb : b.pressure = some .none)
  | default (h : Attribute.pressure.label ∉ entries.map Prod.fst)
    (hunset : ¬ Unset entries Attribute.pressure.label)
    (hb : b.pressure = (Boundary.new b.kind).pressure)

section
variable {entries : Toml.Table} {r : Record}

/-- Reading and listing as unset only ever give what a pressure can be. -/
theorem Decoded.storable (h : Decoded entries r) {key : String} (hv : r.given[key]? = some v) :
    v.Storable := by
  rw [getElem?_given] at hv
  cases hread : r.attributes[key]? with
  | some w =>
    rw [hread] at hv
    cases hv
    obtain ⟨t, -, hdecode⟩ := h.value key _ hread
    exact (Value.held_of_decode hdecode).storable
  | none =>
    rw [hread, Option.none_or] at hv
    split at hv
    · cases hv; exact ⟨rfl, rfl⟩
    · cases hv

theorem keeps_pressure {v : Value} (h : v.Storable) : Attribute.pressure.Keeps v v := by
  have hkeeps := Attribute.Keeps.pressure h.not_gapped
  rwa [h.canonical] at hkeeps

theorem Decoded.build_ne (h : Decoded entries r) (expected : Boundary.Shape) :
    r.build ≠ .error (.invalid Attribute.pressure.label expected) := by
  intro hbuild
  obtain ⟨_, -, hresult⟩ | ⟨-, ⟨a, hfirst, hresult⟩ | ⟨-, _, hresult⟩⟩ :=
    Boundary.ofAttributes_cases r.kind r.given
  · cases hresult.symm.trans hbuild
  · obtain ⟨hlabel, -⟩ := Boundary.Fault.invalid.inj (Except.error.inj (hresult.symm.trans hbuild))
    obtain rfl := Attribute.label_injective hlabel
    obtain ⟨v, hv, hnot⟩ := hfirst.misfit
    exact hnot v (keeps_pressure (h.storable hv))
  · cases hresult.symm.trans hbuild

theorem pressure_of_given {given : Attributes} (h : ofAttributes k given = .ok b)
    (hv : given[Attribute.pressure.label]? = some v) (hstorable : v.Storable) :
    b.pressure = some v := by
  have hkey : Attribute.pressure.label ∈ given := by
    simp [Std.ExtTreeMap.mem_iff_isSome_getElem?, hv]
  obtain ⟨a, ha, hlabel⟩ :=
    Boundary.recognizes_iff.mp ((Boundary.ofAttributes_eq_ok_iff.mp h).1 _ hkey)
  obtain rfl := Attribute.label_injective hlabel
  exact (Boundary.value?_of_ofAttributes h ha).mpr (.given hv (keeps_pressure hstorable))

theorem pressure_of_not_given {given : Attributes} (h : ofAttributes k given = .ok b)
    (hnot : Attribute.pressure.label ∉ given) : b.pressure = (Boundary.new b.kind).pressure := by
  rw [Boundary.ofAttributes_kind h]
  by_cases ha : Attribute.pressure ∈ k.attributes
  · have hvalue := (Boundary.value?_of_ofAttributes h ha).mpr (.default hnot)
    exact hvalue.trans (Boundary.value?_new ha).symm
  · have hkind : k.hasPressure = false := by simpa [Boundary.mem_attributes_iff] using ha
    have hwell := (Boundary.Reachable.ofAttributes h).wellFormed.hasPressure
    rw [Boundary.ofAttributes_kind h, hkind] at hwell
    have hnone : b.pressure = none := by simpa using hwell
    rw [hnone, Boundary.new, if_neg (by simp [hkind])]

theorem Decoded.pressureRead (h : Decoded entries r) (hb : r.build = .ok b) :
    PressureRead entries b := by
  have hlisted (ht : Attribute.pressure.label ∉ r.attributes) :
      Attribute.pressure.label ∉ entries.map Prod.fst := by
    intro hkey
    obtain ⟨⟨_, t⟩, he, rfl⟩ := List.mem_map.mp hkey
    exact ht (h.read _ t he (isAttributeKey_label _)).1
  cases hread : r.attributes[Attribute.pressure.label]? with
  | some v =>
    obtain ⟨t, ht, hdecode⟩ := h.value _ v hread
    have hgiven := r.completed_given.explicit _ v hread
    exact .given ht hdecode (pressure_of_given hb hgiven (h.storable hgiven))
  | none =>
    have hnot : Attribute.pressure.label ∉ r.attributes := by simpa using hread
    by_cases hunset : Attribute.pressure.label ∈ r.unset
    · have hgiven := r.completed_given.unset _ hunset hnot
      exact .unset (hlisted hnot) ((h.unset _).mp hunset)
        (pressure_of_given hb hgiven (h.storable hgiven))
    · exact .default (hlisted hnot) (mt (h.unset _).mpr hunset)
        (pressure_of_not_given hb (r.completed_given.others _ hnot hunset))

end

-- ---------------------------------------------------------------------------
-- Documents
-- ---------------------------------------------------------------------------

def Holds (text : String) (items : List Toml.Value) : Prop :=
  ∃ table, Toml.read text = some table ∧ (table.lookup recordsKey = some (.array items) ∨
    table.lookup recordsKey = none ∧ items = [])

theorem decode_of_holds (h : Holds text items) :
    (Toml.read text).bind decode = items.mapM Record.decode := by
  obtain ⟨table, htable, hitems | ⟨hnone, rfl⟩⟩ := h
  · simp [htable, decode, hitems]
  · simp [htable, decode, hnone]

theorem holds_of_decode (h : (Toml.read text).bind decode = some records) :
    ∃ items, Holds text items ∧ items.mapM Record.decode = some records := by
  obtain ⟨table, htable, hdecode⟩ := Option.bind_eq_some_iff.mp h
  unfold decode at hdecode
  split at hdecode
  · next hnone => exact ⟨[], ⟨table, htable, .inr ⟨hnone, rfl⟩⟩, hdecode⟩
  · next items hitems => exact ⟨items, ⟨table, htable, .inl hitems⟩, hdecode⟩
  · cases hdecode

theorem build_ne_pressure {records : List Record} (h : (Toml.read text).bind decode = some records)
    (index : Nat) (expected : Boundary.Shape) :
    build records ≠ .error (.boundary index (.invalid Attribute.pressure.label expected)) := by
  intro hbuild
  obtain ⟨_, _, ⟨_, r, _, rfl, -, -, hr⟩, ⟨⟩⟩ := buildFrom_eq_error_iff.mp hbuild
  obtain ⟨items, -, hitems⟩ := holds_of_decode h
  obtain ⟨item, -, hitem⟩ := (mem_mapM_iff (b := r) hitems).mp (by simp)
  obtain ⟨entries, -, hdecoded⟩ := decoded_of_decode hitem
  exact hdecoded.build_ne expected hr

theorem pressures_of_build {items : List Toml.Value} {records : List Record}
    (hitems : List.Forall₂ (fun item r => Record.decode item = some r) items records)
    (hbs : List.Forall₂ (fun r b => r.build = .ok b) records bs) :
    List.Forall₂ (fun item b => ∃ entries, item = .table entries ∧ PressureRead entries b)
      items bs := by
  induction hitems generalizing bs with
  | nil =>
    cases hbs
    exact .nil
  | cons hitem _ ih =>
    obtain _ | ⟨hb, hbs⟩ := hbs
    obtain ⟨entries, hentries, hdecoded⟩ := decoded_of_decode hitem
    exact .cons ⟨entries, hentries, hdecoded.pressureRead hb⟩ (ih hbs)

/-- Records are read before any is built: one that cannot be read is the fault whatever the others
are like. -/
theorem read_unreadable (h : Holds text items) (hitem : .table entries ∈ items)
    (ht : (key, t) ∈ entries) (hkey : isAttributeKey key = true) (hnot : ¬ Readable t) :
    read text = .error .unreadable := by
  refine read_of_decode_none ?_
  rw [decode_of_holds h, Option.eq_none_iff_forall_ne_some]
  intro records hrecords
  obtain ⟨r, hr⟩ := exists_mapM_iff.mp ⟨records, hrecords⟩ _ hitem
  obtain ⟨_, ⟨⟩, hdecoded⟩ := decoded_of_decode hr
  exact hnot (hdecoded.read key t ht hkey).2

/-- What is read for an attribute is canonical and has no gap. So no document is refused for a
pressure, and each pressure is the value that was read, unless it was only listed as unset or not
mentioned at all. What can be read is told by the tree alone, and a document with anything else in
the place of an attribute is unreadable. -/
theorem read_pressure :
    (∀ t v, Value.decode t = some v → v.canonical = v ∧ v ≠ .none ∧ ¬ v.Gapped) ∧
      (∀ t, (∃ v, Value.decode t = some v) ↔ Readable t) ∧
      ∀ text,
        (∀ index expected,
          read text ≠ .error (.boundary index (.invalid Attribute.pressure.label expected))) ∧
        (∀ bs, read text = .ok bs → ∃ items, Holds text items ∧
          List.Forall₂ (fun item b => ∃ entries, item = .table entries ∧ PressureRead entries b)
            items bs) ∧
        ∀ items entries key t, Holds text items → .table entries ∈ items → (key, t) ∈ entries →
          isAttributeKey key = true → ¬ Readable t → read text = .error .unreadable := by
  refine ⟨fun t v hv => ?_, fun t => Value.readable_iff.symm, fun text => ⟨?_, ?_,
    fun _ _ _ _ => read_unreadable⟩⟩
  · have hheld := Value.held_of_decode hv
    refine ⟨hheld.storable.canonical, ?_, hheld.storable.not_gapped⟩
    rintro rfl
    cases hheld.something
  · intro index expected
    cases hdecode : (Toml.read text).bind decode with
    | none =>
      rw [read_of_decode_none hdecode]
      nofun
    | some records =>
      rw [read_of_decode hdecode]
      exact build_ne_pressure hdecode index expected
  · intro bs hbs
    cases hdecode : (Toml.read text).bind decode with
    | none =>
      rw [read_of_decode_none hdecode] at hbs
      cases hbs
    | some records =>
      rw [read_of_decode hdecode] at hbs
      obtain ⟨items, hholds, hitems⟩ := holds_of_decode hdecode
      exact ⟨items, hholds,
        pressures_of_build (mapM_eq_some_iff.mp hitems) (buildFrom_eq_ok_iff.mp hbs)⟩

theorem read_pressure_listed : ∃ switched given,
    switched = "[[iolets]]\nkind = \"plain\"\nColour = \"red\"\n\n" ++
        "[[iolets]]\nkind = \"inlet\"\nPressure = true\n" ∧
      read switched = .error .unreadable ∧
    given = "[[iolets]]\nkind = \"inlet\"\nunset = [\"Pressure\"]\n" ++
        "Pressure = [[1, 2, 3], \"bar\"]\n" ∧
      ∃ entries b v, Holds given [.table entries] ∧ read given = .ok [b] ∧
        PressureRead entries b ∧ b.pressure = some (.list [.vector v, .text "bar"]) := by
  let switched := "[[iolets]]\nkind = \"plain\"\nColour = \"red\"\n\n" ++
    "[[iolets]]\nkind = \"inlet\"\nPressure = true\n"
  let given := "[[iolets]]\nkind = \"inlet\"\nunset = [\"Pressure\"]\n" ++
    "Pressure = [[1, 2, 3], \"bar\"]\n"
  obtain ⟨-, -, hread⟩ := read_pressure
  refine ⟨switched, given, rfl, ?_, rfl, ?_⟩
  · let second : Toml.Table := [("kind", .string "inlet"), ("Pressure", .boolean true)]
    have htext : Toml.read switched = some [("iolets", .array [
        .table [("kind", .string "plain"), ("Colour", .string "red")], .table second])] := by
      dsimp only [switched, second]
      cbv
    have hsecond : ("Pressure", .boolean true) ∈ second := by simp [second]
    exact (hread switched).2.2 _ second _ _ ⟨_, htext, .inl rfl⟩ (by simp) hsecond rfl
      (by rintro ⟨⟩)
  · have htext : Toml.read given = some [("iolets", .array [.table [("kind", .string "inlet"),
        ("unset", .array [.string "Pressure"]), ("Pressure",
          .array [.array [.integer 1, .integer 2, .integer 3], .string "bar"])]])] := by
      dsimp only [given]
      cbv
    let vector : Vec Float := ⟨Value.ofInteger 1, Value.ofInteger 2, Value.ofInteger 3⟩
    let pressure : Value := .list [.vector vector, .text "bar"]
    let b := { Boundary.new .inlet with pressure := some pressure }
    let record : Record := ⟨.inlet, ["Pressure"], .ofList [("Pressure", pressure)] compare⟩
    have hrecords : (Toml.read given).bind decode = some [record] := by
      rw [htext]
      rfl
    have hb : read given = .ok [b] := by
      rw [read_of_decode hrecords]
      rfl
    obtain ⟨items, hholds, hall⟩ := (hread given).2.1 [b] hb
    simp only [List.forall₂_cons_right_iff, List.forall₂_nil_right_iff] at hall
    obtain ⟨_, _, ⟨entries, rfl, hpressure⟩, rfl, rfl⟩ := hall
    exact ⟨entries, b, vector, hholds, hb, hpressure, rfl⟩

end SimSetup.Snapshot
