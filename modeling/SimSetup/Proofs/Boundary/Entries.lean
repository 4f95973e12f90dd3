import Mathlib.Data.List.TakeWhile
import SimSetup.Proofs.Boundary.Attributes

/-!
# Entries set one after another

To build a boundary from a mapping is to make a new one and set the entries of the mapping, in any
order. What an attribute keeps of a value depends on the value alone; so different attributes may be
set in any order, and it makes no difference whether a value is set, built from or handed over.
-/

namespace SimSetup.Boundary

/-- What an attribute keeps of a value that it is given; nothing if it refuses the value. -/
def Attribute.stored : Attribute → Value → Option Value
  | name, .none => some .none
  | name, .text s => some (.text s)
  | name, _ => none
  | centre, v | normal, v => v.vector?.map .vector
  | radius, v => v.number?.map .number
  | pressure, v => if v.hasGap then none else some v.canonical

def Attribute.shape : Attribute → Shape
  | name => .textOrNone
  | centre | normal => .vector
  | radius => .number
  | pressure => .noGaps

def Attribute.refusal (a : Attribute) : Fault := .invalid a.label a.shape

def setAll : List (String × Value) → Edit Unit
  | [] => pure ()
  | (path, v) :: rest => do
    let _ ← set path v
    setAll rest

/-- The entry names an attribute of the kind, which keeps something of the value. -/
def Kind.Takes (k : Kind) (entry : String × Value) : Prop :=
  ∃ a ∈ k.attributes, a.label = entry.1 ∧ (a.stored entry.2).isSome

/-- What the entries give an attribute of `b'` comes from them, and all else from `b`. -/
structure Updated (b : Boundary) (entries : List (String × Value)) (b' : Boundary) : Prop where
  kind : b'.kind = b.kind
  dependencies : b'.dependencies = b.dependencies
  given : ∀ a v, (a.label, v) ∈ entries → b'.value? a = a.stored v
  others : ∀ a, a.label ∉ entries.map Prod.fst → b'.value? a = b.value? a

-- ---------------------------------------------------------------------------
-- One attribute
-- ---------------------------------------------------------------------------

theorem Assigns.stored (h : Assigns b a v b') : ∃ w, a.stored v = some w ∧ b'.value? a = some w := by
  cases h with
  | unnamed => exact ⟨_, rfl, rfl⟩
  | named => exact ⟨_, rfl, rfl⟩
  | centre h | normal h => exact ⟨_, by rw [Attribute.stored, h]; rfl, rfl⟩
  | radius h => exact ⟨_, by rw [Attribute.stored, h]; rfl, rfl⟩
  | pressure _ hg => exact ⟨_, by rw [Attribute.stored, hg]; rfl, rfl⟩

theorem Assigns.value?_of_ne (h : Assigns b a v b') (hne : other ≠ a) :
    b'.value? other = b.value? other := by
  cases h <;> cases other <;> first | rfl | exact absurd rfl hne

/-- The pressure is the only attribute that a kind may lack. -/
theorem mem_attributes_iff {k : Kind} :
    a ∈ k.attributes ↔ (a = .pressure → k.hasPressure = true) := by
  cases k <;> cases a <;> decide

theorem hasPressure_of_mem {k : Kind} (h : .pressure ∈ k.attributes) : k.hasPressure = true :=
  mem_attributes_iff.mp h rfl

theorem exists_assigns {b : Boundary} (ha : a ∈ b.kind.attributes) (h : a.stored v = some w) :
    ∃ b', Assigns b a v b' := by
  cases a with
  | name =>
    cases v with
    | none => exact ⟨_, .unnamed⟩
    | text s => exact ⟨_, .named⟩
    | number | vector | list => cases h
  | centre =>
    obtain ⟨c, hc, -⟩ := Option.map_eq_some_iff.mp h
    exact ⟨_, .centre hc⟩
  | normal =>
    obtain ⟨n, hn, -⟩ := Option.map_eq_some_iff.mp h
    exact ⟨_, .normal hn⟩
  | radius =>
    obtain ⟨r, hr, -⟩ := Option.map_eq_some_iff.mp h
    exact ⟨_, .radius hr⟩
  | pressure =>
    refine ⟨_, .pressure (hasPressure_of_mem ha) ?_⟩
    cases hg : v.hasGap with
    | false => rfl
    | true => simp [Attribute.stored, hg] at h

theorem run_assign_refused {b : Boundary} (ha : a ∈ b.kind.attributes) (h : a.stored v = none) :
    (assign a v).run b = (.error a.refusal, b) := by
  cases a with
  | name =>
    cases v with
    | none | text => cases h
    | number | vector | list => rfl
  | centre | normal =>
    have hv : v.vector? = none := Option.map_eq_none_iff.mp h
    simp [assign, run_bind, hv]
    rfl
  | radius =>
    have hv : v.number? = none := Option.map_eq_none_iff.mp h
    simp [assign, run_bind, hv]
    rfl
  | pressure =>
    have hk := hasPressure_of_mem ha
    have hg : v.hasGap = true := by
      cases hg : v.hasGap with
      | true => rfl
      | false => simp [Attribute.stored, hg] at h
    simp [assign, run_bind, hk, pressureOf, hg, assign.liftExcept]
    rfl

theorem stored_default (a : Attribute) : a.stored a.default = some a.default := by
  cases a <;> rfl

theorem value?_new {k : Kind} (ha : a ∈ k.attributes) : (new k).value? a = some a.default := by
  cases a with
  | pressure => simp [value?, new, hasPressure_of_mem ha]
  | name | centre | normal | radius => rfl

theorem ext_value? {b b' : Boundary} (hkind : b'.kind = b.kind)
    (hdependencies : b'.dependencies = b.dependencies) (h : ∀ a, b'.value? a = b.value? a) :
    b' = b := by
  obtain ⟨_, name, _, _, _, _, _⟩ := b
  obtain ⟨_, name', _, _, _, _, _⟩ := b'
  have hname := h .name
  have hcentre := h .centre
  have hnormal := h .normal
  have hradius := h .radius
  have hpressure := h .pressure
  cases hkind
  cases hdependencies
  cases hcentre
  cases hnormal
  cases hradius
  cases hpressure
  cases name <;> cases name' <;> cases hname <;> rfl

-- ---------------------------------------------------------------------------
-- One entry
-- ---------------------------------------------------------------------------

theorem splitPath_of_no_dot {path : String} (h : '.' ∉ path.toList) :
    splitPath path = (path, none) := by
  have hall : ∀ c ∈ path.toList, (decide (c ≠ '.')) = true := by
    intro c hc
    simpa using fun heq : c = '.' => h (heq ▸ hc)
  have htake := List.takeWhile_eq_self_iff.mpr hall
  have hdrop := List.dropWhile_eq_nil_iff.mpr hall
  simp only [splitPath, htake, hdrop, String.ofList_toList]

theorem no_dot_label (a : Attribute) : '.' ∉ a.label.toList := by
  cases a <;> decide

theorem find?_label {k : Kind} (ha : a ∈ k.attributes) :
    k.attributes.find? (·.label = a.label) = some a := by
  revert ha
  cases k <;> cases a <;> decide

theorem run_set_label {b : Boundary} (ha : a ∈ b.kind.attributes) (v : Value) :
    (set a.label v).run b =
      (((assign a v).run b).1.map fun _ => b.dependencies.dependents a.label,
        ((assign a v).run b).2) := by
  have hpath := splitPath_of_no_dot (no_dot_label a)
  rcases run_assign a v b with ⟨b', hb', hassigns⟩ | ⟨e, he⟩
  · simp only [set, run_bind, run_get, hpath, find?_label ha, hb', hassigns.dependencies]
    rw [← hassigns.dependencies]
    rfl
  · simp only [set, run_bind, run_get, hpath, find?_label ha, he]
    rfl

theorem Assigns.run_set (h : Assigns b a v b') (ha : a ∈ b.kind.attributes) :
    (Boundary.set a.label v).run b = (.ok (b.dependencies.dependents a.label), b') := by
  rw [run_set_label ha, h.run]
  rfl

theorem run_set_unknown {b : Boundary} (hdot : '.' ∉ path.toList)
    (h : b.kind.recognizes path = false) (v : Value) :
    (set path v).run b = (.error (.unknown b.kind path), b) := by
  have hfind : b.kind.attributes.find? (·.label = path) = none := by
    rw [List.find?_eq_none]
    intro a ha hlabel
    rw [Bool.eq_false_iff] at h
    exact h (recognizes_iff.mpr ⟨a, ha, by simpa using hlabel⟩)
  simp only [set, run_bind, run_get, splitPath_of_no_dot hdot, hfind]
  rfl

theorem run_set_entry (b : Boundary) (hdot : '.' ∉ key.toList) (v : Value) :
    (∃ a b', a ∈ b.kind.attributes ∧ a.label = key ∧ Assigns b a v b' ∧
        (set key v).run b = (.ok (b.dependencies.dependents key), b')) ∨
      (∃ a ∈ b.kind.attributes, a.label = key ∧ a.stored v = none ∧
        (set key v).run b = (.error a.refusal, b)) ∨
      (b.kind.recognizes key = false ∧ (set key v).run b = (.error (.unknown b.kind key), b)) := by
  cases hkey : b.kind.recognizes key with
  | false => exact .inr (.inr ⟨rfl, run_set_unknown hdot hkey v⟩)
  | true =>
    obtain ⟨a, ha, rfl⟩ := recognizes_iff.mp hkey
    cases hstored : a.stored v with
    | none =>
      refine .inr (.inl ⟨a, ha, rfl, hstored, ?_⟩)
      rw [run_set_label ha, run_assign_refused ha hstored]
      rfl
    | some w =>
      obtain ⟨b', hassigns⟩ := exists_assigns ha hstored
      exact .inl ⟨a, b', ha, rfl, hassigns, hassigns.run_set ha⟩

-- ---------------------------------------------------------------------------
-- All entries
-- ---------------------------------------------------------------------------

theorem updated_cons_iff {b b₁ b' : Boundary} {rest : List (String × Value)}
    (hassigns : Assigns b a v b₁) (hkey : a.label ∉ rest.map Prod.fst) :
    Updated b ((a.label, v) :: rest) b' ↔ Updated b₁ rest b' := by
  obtain ⟨w, hstored, hvalue⟩ := hassigns.stored
  constructor
  · intro h
    refine ⟨h.kind.trans hassigns.kind.symm, h.dependencies.trans hassigns.dependencies.symm,
      fun a' v' hmem => h.given a' v' (List.mem_cons_of_mem _ hmem), fun a' hmem => ?_⟩
    by_cases heq : a' = a
    · rw [heq, hvalue, h.given a v List.mem_cons_self, hstored]
    · rw [hassigns.value?_of_ne heq]
      refine h.others a' ?_
      rw [List.map_cons, List.mem_cons, not_or]
      exact ⟨fun hlabel => heq (Attribute.label_injective hlabel), hmem⟩
  · intro h
    refine ⟨h.kind.trans hassigns.kind, h.dependencies.trans hassigns.dependencies,
      fun a' v' hmem => ?_, fun a' hmem => ?_⟩
    · rcases List.mem_cons.mp hmem with heq | hmem
      · obtain ⟨hlabel, rfl⟩ := Prod.mk.inj heq
        rw [Attribute.label_injective hlabel, h.others a hkey, hvalue, hstored]
      · exact h.given a' v' hmem
    · rw [List.map_cons, List.mem_cons, not_or] at hmem
      rw [h.others a' hmem.2]
      exact hassigns.value?_of_ne fun heq => hmem.1 (congrArg _ heq)

/-- Entries with different keys are set exactly when each is taken, and each then has its effect. -/
theorem run_setAll {b b' : Boundary} {entries : List (String × Value)}
    (hdots : ∀ e ∈ entries, '.' ∉ e.1.toList) (hkeys : (entries.map Prod.fst).Nodup) :
    (setAll entries).run b = (.ok (), b') ↔
      (∀ e ∈ entries, b.kind.Takes e) ∧ Updated b entries b' := by
  induction entries generalizing b with
  | nil =>
    constructor
    · intro h
      cases h
      exact ⟨nofun, rfl, rfl, nofun, fun _ _ => rfl⟩
    · rintro ⟨-, h⟩
      rw [ext_value? h.kind h.dependencies fun a => h.others a (by simp)]
      rfl
  | cons entry rest ih =>
    obtain ⟨key, v⟩ := entry
    rw [List.map_cons, List.nodup_cons] at hkeys
    rw [List.forall_mem_cons] at hdots ⊢
    rw [setAll, run_bind]
    rcases run_set_entry b hdots.1 v with ⟨a, b₁, ha, rfl, hassigns, hrun⟩ |
      ⟨a, ha, rfl, hnone, hrun⟩ | ⟨hunknown, hrun⟩ <;> rw [hrun]
    -- the kind stays the same, so that the rest is taken by `b₁` exactly if it is by `b`
    · obtain ⟨w, hstored, -⟩ := hassigns.stored
      have htake : b.kind.Takes (a.label, v) := ⟨a, ha, rfl, by rw [hstored]; rfl⟩
      simp only
      rw [ih hdots.2 hkeys.2, hassigns.kind, updated_cons_iff hassigns hkeys.1, and_iff_right htake]
    · refine iff_of_false nofun ?_
      rintro ⟨⟨⟨a', -, hlabel, hsome⟩, -⟩, -⟩
      rw [Attribute.label_injective hlabel, hnone] at hsome
      cases hsome
    · refine iff_of_false nofun ?_
      rintro ⟨⟨⟨a', ha', hlabel, -⟩, -⟩, -⟩
      rw [recognizes_iff.mpr ⟨a', ha', hlabel⟩] at hunknown
      cases hunknown

-- ---------------------------------------------------------------------------
-- Building from a mapping
-- ---------------------------------------------------------------------------

def Kind.completed (k : Kind) (given : Attributes) : List (String × Value) :=
  k.attributes.map fun a => (a.label, given.getD a.label a.default)

theorem run_assignAll (given : Attributes) {as : List Attribute} (has : as ⊆ b.kind.attributes) :
    (assignAll given as).run b =
      (setAll (as.map fun a => (a.label, given.getD a.label a.default))).run b := by
  induction as generalizing b with
  | nil => rfl
  | cons a as ih =>
    obtain ⟨ha, has⟩ := List.cons_subset.mp has
    rw [assignAll, List.map_cons, setAll, run_bind, run_bind, run_set_label ha]
    rcases run_assign a (given.getD a.label a.default) b with ⟨b', hb', hassigns⟩ | ⟨e, he⟩
    · rw [hb']
      exact ih (hassigns.kind ▸ has)
    · rw [he]
      rfl

theorem ofAttributes_eq_ok_iff : ofAttributes k given = .ok b ↔
    (∀ key ∈ given, k.recognizes key = true) ∧
      (setAll (k.completed given)).run (new k) = (.ok (), b) := by
  have hall := run_assignAll (b := new k) given (List.Subset.refl k.attributes)
  rw [ofAttributes_eq_ok, hall, List.find?_eq_none]
  simp [Std.ExtTreeMap.mem_keys, Kind.completed]

theorem ofAttributes_eq_invalid (h : ofAttributes k given = .error (.invalid path expected)) :
    (∀ key ∈ given, k.recognizes key = true) ∧
      ∃ b, (setAll (k.completed given)).run (new k) = (.error (.invalid path expected), b) := by
  have hall := run_assignAll (b := new k) given (List.Subset.refl k.attributes)
  unfold ofAttributes at h
  cases hfind : given.keys.find? (!k.recognizes ·) with
  | some name =>
    rw [hfind] at h
    cases h
  | none =>
    rw [List.find?_eq_none] at hfind
    refine ⟨fun key hkey => by simpa using hfind key (Std.ExtTreeMap.mem_keys.mpr hkey), ?_⟩
    rw [List.find?_eq_none.mpr hfind, hall] at h
    rw [Kind.completed]
    rcases hrun : (setAll (k.attributes.map fun a => (a.label, given.getD a.label a.default))).run
      (new k) with ⟨_ | _, b⟩ <;> rw [hrun] at h <;> cases h
    exact ⟨b, hrun⟩

section
variable {k : Kind} {given : Attributes}

theorem keys_completed : (k.completed given).map Prod.fst = k.attributes.map Attribute.label := by
  simp [Kind.completed]

theorem no_dot_completed : ∀ e ∈ k.completed given, '.' ∉ e.1.toList := by
  intro e he
  obtain ⟨a, -, rfl⟩ := List.mem_map.mp he
  exact no_dot_label a

theorem nodup_keys_completed : ((k.completed given).map Prod.fst).Nodup := by
  rw [keys_completed]
  cases k <;> decide

theorem ofAttributes_kind (h : ofAttributes k given = .ok b) : b.kind = k :=
  ((run_setAll no_dot_completed nodup_keys_completed).mp (ofAttributes_eq_ok_iff.mp h).2).2.kind

variable {entries : List (String × Value)} (hperm : entries.Perm given.toList)
include hperm

theorem mem_entries {key : String} {v : Value} : (key, v) ∈ entries ↔ given[key]? = some v := by
  rw [hperm.mem_iff, Std.ExtTreeMap.mem_toList_iff_getElem?_eq_some]

theorem mem_keys_entries {key : String} : key ∈ entries.map Prod.fst ↔ key ∈ given := by
  rw [Std.ExtTreeMap.mem_iff_isSome_getElem?, Option.isSome_iff_exists, List.mem_map]
  constructor
  · rintro ⟨⟨_, v⟩, hv, rfl⟩
    exact ⟨v, (mem_entries hperm).mp hv⟩
  · rintro ⟨v, hv⟩
    exact ⟨(key, v), (mem_entries hperm).mpr hv, rfl⟩

theorem nodup_keys_entries : (entries.map Prod.fst).Nodup := by
  have hkeys : (given.toList.map Prod.fst).Nodup := by
    rw [List.nodup_iff_pairwise_ne, List.pairwise_map]
    refine Std.ExtTreeMap.distinct_keys_toList.imp fun hne heq => hne ?_
    exact Std.LawfulEqCmp.compare_eq_iff_eq.mpr heq
  exact (hperm.map Prod.fst).nodup_iff.mpr hkeys

theorem mem_completed_of_mem_entries (hrec : ∀ key ∈ given, k.recognizes key = true) {e}
    (he : e ∈ entries) : e ∈ k.completed given := by
  obtain ⟨key, v⟩ := e
  have hv := (mem_entries hperm).mp he
  obtain ⟨a, ha, rfl⟩ := recognizes_iff.mp (hrec key ((mem_keys_entries hperm).mp
    (List.mem_map.mpr ⟨_, he, rfl⟩)))
  refine List.mem_map.mpr ⟨a, ha, ?_⟩
  rw [Std.ExtTreeMap.getD_eq_getD_getElem?, hv]
  rfl

theorem mem_completed_cases {e} (he : e ∈ k.completed given) : e ∈ entries ∨
    ∃ a ∈ k.attributes, e = (a.label, a.default) ∧ a.label ∉ entries.map Prod.fst := by
  obtain ⟨a, ha, rfl⟩ := List.mem_map.mp he
  rw [Std.ExtTreeMap.getD_eq_getD_getElem?]
  cases hv : given[a.label]? with
  | some v => exact .inl ((mem_entries hperm).mpr hv)
  | none =>
    refine .inr ⟨a, ha, rfl, ?_⟩
    rw [mem_keys_entries hperm, Std.ExtTreeMap.mem_iff_isSome_getElem?, hv]
    exact Bool.false_ne_true

theorem takes_completed_iff (hrec : ∀ key ∈ given, k.recognizes key = true) :
    (∀ e ∈ k.completed given, k.Takes e) ↔ ∀ e ∈ entries, k.Takes e := by
  constructor
  · exact fun h e he => h e (mem_completed_of_mem_entries hperm hrec he)
  · intro h e he
    obtain he | ⟨a, ha, rfl, -⟩ := mem_completed_cases hperm he
    · exact h e he
    · exact ⟨a, ha, rfl, by rw [stored_default]; rfl⟩

/-- A new boundary has the defaults already. -/
theorem updated_completed_iff (hrec : ∀ key ∈ given, k.recognizes key = true) {b : Boundary} :
    Updated (new k) (k.completed given) b ↔ Updated (new k) entries b := by
  constructor
  · intro h
    refine ⟨h.kind, h.dependencies, fun a v hv =>
      h.given a v (mem_completed_of_mem_entries hperm hrec hv), fun a hnot => ?_⟩
    by_cases ha : a ∈ k.attributes
    · have hmem : (a.label, given.getD a.label a.default) ∈ k.completed given :=
        List.mem_map.mpr ⟨a, ha, rfl⟩
      rcases mem_completed_cases hperm hmem with he | ⟨a', -, heq, -⟩
      · exact absurd (List.mem_map.mpr ⟨_, he, rfl⟩) hnot
      · obtain ⟨hlabel, hdefault⟩ := Prod.mk.inj heq
        obtain rfl := Attribute.label_injective hlabel
        rw [h.given a _ hmem, hdefault, stored_default, value?_new ha]
    · refine h.others a fun hmem => ha ?_
      rw [keys_completed] at hmem
      obtain ⟨a', ha', hlabel⟩ := List.mem_map.mp hmem
      exact Attribute.label_injective hlabel ▸ ha'
  · intro h
    refine ⟨h.kind, h.dependencies, fun a v hv => ?_, fun a hnot => h.others a fun hmem => ?_⟩
    · obtain he | ⟨a', ha', heq, hnot⟩ := mem_completed_cases hperm hv
      · exact h.given a v he
      · obtain ⟨hlabel, rfl⟩ := Prod.mk.inj heq
        obtain rfl := Attribute.label_injective hlabel
        rw [h.others a hnot, value?_new ha', stored_default]
    · obtain ⟨e, he, hkey⟩ := List.mem_map.mp hmem
      exact hnot (List.mem_map.mpr ⟨e, mem_completed_of_mem_entries hperm hrec he, hkey⟩)

end

theorem run_setAll_error {b b' : Boundary} {entries : List (String × Value)}
    (hdots : ∀ e ∈ entries, '.' ∉ e.1.toList) (h : (setAll entries).run b = (.error fault, b')) :
    ∃ e ∈ entries, (∃ a ∈ b.kind.attributes, a.label = e.1 ∧ a.stored e.2 = none ∧ fault = a.refusal) ∨
      fault = .unknown b.kind e.1 := by
  induction entries generalizing b with
  | nil => cases h
  | cons entry rest ih =>
    obtain ⟨key, v⟩ := entry
    rw [List.forall_mem_cons] at hdots
    rw [setAll] at h
    rcases run_set_entry b hdots.1 v with ⟨a, b₁, ha, rfl, hassigns, hrun⟩ |
      ⟨a, ha, rfl, hnone, hrun⟩ | ⟨hunknown, hrun⟩ <;> rw [run_bind, hrun] at h
    · obtain ⟨e, he, hcases⟩ := ih hdots.2 h
      rw [hassigns.kind] at hcases
      exact ⟨e, List.mem_cons_of_mem _ he, hcases⟩
    · cases h
      exact ⟨_, List.mem_cons_self, .inl ⟨a, ha, rfl, hnone, rfl⟩⟩
    · cases h
      exact ⟨_, List.mem_cons_self, .inr rfl⟩

-- ---------------------------------------------------------------------------
-- Builders
-- ---------------------------------------------------------------------------

/-- The attribute that a builder changes and the value it is given; an edit by path is no builder. -/
def Change.assigned? : Change → Option (Attribute × Value)
  | set .. => none
  | name s => some (.name, .text s)
  | centre c => some (.centre, .vector c)
  | normal n => some (.normal, .vector n)
  | radius r => some (.radius, .number r)
  | pressure v => some (.pressure, v)

theorem apply_builder {c : Change} (h : c.assigned? = some (a, v)) (b : Boundary) :
    c.apply b = ((set a.label v).run b).2 := by
  have hset {b'} (hne : a ≠ .pressure) (hassigns : Assigns b a v b') :
      b' = ((set a.label v).run b).2 := by
    rw [hassigns.run_set (mem_attributes_iff.mpr fun heq => absurd heq hne)]
  cases c with
  | set => cases h
  | name =>
    cases h
    exact hset nofun .named
  | centre =>
    cases h
    exact hset nofun (.centre rfl)
  | normal =>
    cases h
    exact hset nofun (.normal rfl)
  | radius =>
    cases h
    exact hset nofun (.radius rfl)
  | pressure v =>
    cases h
    show b.withPressure v = _
    rcases withPressure_cases b v with ⟨hk, hg, hb⟩ | ⟨hnot, hb⟩
    · rw [hb, (Assigns.pressure hk hg).run_set (mem_attributes_iff.mpr fun _ => hk)]
    · rw [hb]
      cases hk : b.kind.hasPressure with
      | false =>
        have hunknown : b.kind.recognizes Attribute.pressure.label = false := by
          revert hk
          cases b.kind <;> decide
        rw [run_set_unknown (no_dot_label _) hunknown]
      | true =>
        have hg : v.hasGap = true := hnot.resolve_left (by simp [hk])
        have hmem : .pressure ∈ b.kind.attributes := mem_attributes_iff.mpr fun _ => hk
        rw [run_set_label hmem, run_assign_refused hmem (by simp [Attribute.stored, hg])]

/-- A boundary is built from a mapping without dots in its keys exactly when the entries, in any
order, can be set in a new one, and then it is the same boundary; a value that is refused is refused
by the edit for the same reason. A builder makes the boundary that the edit of its attribute makes,
and changes nothing where the edit is refused. -/
theorem ofAttributes_iff_setAll {k : Kind} {given : Attributes} {entries : List (String × Value)}
    (hdots : ∀ key ∈ given, '.' ∉ key.toList) (hperm : entries.Perm given.toList) :
    (∀ b, ofAttributes k given = .ok b ↔ (setAll entries).run (new k) = (.ok (), b)) ∧
      (∀ path expected, ofAttributes k given = .error (.invalid path expected) →
        ∃ v, (path, v) ∈ entries ∧
          ∀ b : Boundary, b.kind = k → (set path v).run b = (.error (.invalid path expected), b)) ∧
      ∀ (b : Boundary) (c : Change) (a : Attribute) (v : Value), c.assigned? = some (a, v) →
        (∀ affected b', (set a.label v).run b = (.ok affected, b') → c.apply b = b') ∧
          ∀ fault b', (set a.label v).run b = (.error fault, b') → c.apply b = b := by
  have hdots' : ∀ e ∈ entries, '.' ∉ e.1.toList := fun e he =>
    hdots e.1 ((mem_keys_entries hperm).mp (List.mem_map.mpr ⟨e, he, rfl⟩))
  refine ⟨fun b => ?_, fun path expected h => ?_, fun b c a v hc => ⟨fun affected b' h => ?_,
    fun fault b' h => ?_⟩⟩
  · rw [ofAttributes_eq_ok_iff, run_setAll no_dot_completed nodup_keys_completed,
      run_setAll hdots' (nodup_keys_entries hperm)]
    constructor
    · rintro ⟨hrec, htakes, hupdated⟩
      exact ⟨(takes_completed_iff hperm hrec).mp htakes,
        (updated_completed_iff hperm hrec).mp hupdated⟩
    · rintro ⟨htakes, hupdated⟩
      have hrec : ∀ key ∈ given, k.recognizes key = true := by
        intro key hkey
        obtain ⟨e, he, rfl⟩ := List.mem_map.mp ((mem_keys_entries hperm).mpr hkey)
        obtain ⟨a, ha, hlabel, -⟩ := htakes e he
        exact recognizes_iff.mpr ⟨a, ha, hlabel⟩
      exact ⟨hrec, (takes_completed_iff hperm hrec).mpr htakes,
        (updated_completed_iff hperm hrec).mpr hupdated⟩
  · obtain ⟨hrec, b, hrun⟩ := ofAttributes_eq_invalid h
    obtain ⟨e, he, ⟨a, ha, hlabel, hnone, hfault⟩ | hfault⟩ := run_setAll_error no_dot_completed hrun
    · obtain ⟨key, v⟩ := e
      obtain rfl : a.label = key := hlabel
      rcases mem_completed_cases hperm he with he | ⟨a', -, heq, -⟩
      · cases hfault
        refine ⟨v, he, fun b hb => ?_⟩
        have ha : a ∈ b.kind.attributes := hb ▸ ha
        rw [run_set_label ha, run_assign_refused ha hnone]
        rfl
      · obtain ⟨hlabel, rfl⟩ := Prod.mk.inj heq
        rw [Attribute.label_injective hlabel, stored_default] at hnone
        cases hnone
    · cases hfault
  · rw [apply_builder hc, h]
  · rw [apply_builder hc]
    rcases run_set a.label v b with ⟨_, _, _, -, -, hrun⟩ | ⟨e, hrun⟩
    · rw [hrun] at h
      cases h
    · rw [hrun]

/-- The pressure comes after the centre in the mapping and is set before it. -/
theorem ofAttributes_iff_setAll_reversed : ∃ b : Boundary,
    b.pressure = some (.list [.vector ⟨1.0, 2.0, 3.0⟩, .text "tag"]) ∧ b.centre = ⟨4.0, 5.0, 6.0⟩ ∧
      ofAttributes .inlet (.ofList [
        ("Centre", Value.list [.number 4.0, .number 5.0, .number 6.0]),
        ("Pressure", Value.list [.list [.number 1.0, .number 2.0, .number 3.0], .text "tag"])]) =
        .ok b := by
  let centre : Value := .list [.number 4.0, .number 5.0, .number 6.0]
  let pressure : Value := .list [.list [.number 1.0, .number 2.0, .number 3.0], .text "tag"]
  let given : Attributes := .ofList [("Centre", centre), ("Pressure", pressure)]
  let b : Boundary := ((new .inlet).withPressure pressure).withCentre ⟨4.0, 5.0, 6.0⟩
  have hlist : given.toList = [("Centre", centre), ("Pressure", pressure)] := rfl
  have hdots : ∀ key ∈ given, '.' ∉ key.toList := by
    intro key hkey
    rw [← Std.ExtTreeMap.mem_keys, ← Std.ExtTreeMap.map_fst_toList_eq_keys, hlist] at hkey
    revert key
    decide
  have hperm : [("Pressure", pressure), ("Centre", centre)].Perm given.toList :=
    hlist ▸ .swap ..
  have hrun : (setAll [("Pressure", pressure), ("Centre", centre)]).run (new .inlet) =
    (.ok (), b) := rfl
  exact ⟨b, rfl, rfl, ((ofAttributes_iff_setAll hdots hperm).1 b).mpr hrun⟩

end SimSetup.Boundary
