import SimSetup.Proofs.Boundary.Entries

/-!
# What paths name

A path names a place: a whole attribute or one component of its vector. Reading and editing by path
look for the same places. An edit of a place that is there is accepted exactly when the place keeps
something of the value; an edit of one that is not there is refused, and as unknown but for one
case: a component that no vector has is only looked for once there is a number to put there.
-/

namespace SimSetup.Boundary

inductive Place
  | whole (a : Attribute)
  | component (a : Attribute) (axis : Axis)
  deriving DecidableEq

namespace Place

def path : Place → String
  | whole a => a.label
  | component a axis => a.label ++ "." ++ axis.label

def ofPath? (s : String) : Option Place :=
  match splitPath s with
  | (name, none) => (Attribute.ofLabel? name).map whole
  | (name, some rest) =>
    (Attribute.ofLabel? name).bind fun a => (Axis.ofLabel? rest).map (component a)

def value? (b : Boundary) : Place → Option Value
  | whole a => b.value? a
  | component a axis => (b.vector? a).map fun vec => .number (vec.get axis)

def stored : Place → Value → Option Value
  | whole a, v => a.stored v
  | component _ _, v => v.number?.map .number

def shape : Place → Shape
  | whole a => a.shape
  | component _ _ => .number

end Place

/-- `Writes b p v b'`: the place `p` of `b` takes the value `v`, which makes it `b'`. -/
inductive Writes (b : Boundary) : Place → Value → Boundary → Prop
  | whole (ha : a ∈ b.kind.attributes) (h : Assigns b a v b') : Writes b (.whole a) v b'
  | component (hvec : b.vector? a = some vec) (h : Assigns b a (.vector (vec.set axis x)) b') :
    Writes b (.component a axis) (.number x) b'

/-- The path goes on from a vector to what is no component, and the value is no number. -/
def Misplaced (b : Boundary) (path : String) (v : Value) : Prop :=
  ∃ (a : Attribute) (rest : String), path = a.label ++ "." ++ rest ∧ (b.vector? a).isSome ∧
    rest ∉ Axis.all.map Axis.label ∧ v.number? = none

/-- The boundary after edits of which each may be refused. -/
def edited (b : Boundary) : List (String × Value) → Boundary
  | [] => b
  | (path, v) :: rest => edited ((set path v).run b).2 rest

def accepted (b : Boundary) : List (String × Value) → List (String × Value)
  | [] => []
  | (path, v) :: rest =>
    match (set path v).run b with
    | (.ok _, b') => (path, v) :: accepted b' rest
    | (.error _, b') => accepted b' rest

-- ---------------------------------------------------------------------------
-- Paths and places
-- ---------------------------------------------------------------------------

theorem splitPath_append {name : String} (h : '.' ∉ name.toList) (rest : String) :
    splitPath (name ++ "." ++ rest) = (name, some rest) := by
  have hall : ∀ c ∈ name.toList, (decide (c ≠ '.')) = true := by
    intro c hc
    simpa using fun heq : c = '.' => h (heq ▸ hc)
  have hpath : (name ++ "." ++ rest).toList = name.toList ++ '.' :: rest.toList := by simp
  simp only [splitPath, hpath, List.takeWhile_append_of_pos hall, List.dropWhile_append_of_pos hall]
  simp

theorem axisOfLabel?_label (axis : Axis) : Axis.ofLabel? axis.label = some axis := by
  cases axis <;> decide

theorem axisOfLabel?_eq_none {s : String} :
    Axis.ofLabel? s = none ↔ s ∉ Axis.all.map Axis.label := by
  simp [Axis.ofLabel?]

@[simp] theorem Place.ofPath?_path (p : Place) : ofPath? p.path = some p := by
  cases p with
  | whole a => simp [ofPath?, path, splitPath_of_no_dot (no_dot_label a), Attribute.ofLabel?_label]
  | component a axis =>
    simp [ofPath?, path, splitPath_append (no_dot_label a), Attribute.ofLabel?_label,
      axisOfLabel?_label]

theorem Place.path_of_ofPath? {p : Place} (h : ofPath? s = some p) : p.path = s := by
  rcases hsplit : splitPath s with ⟨name, _ | rest⟩
  · simp only [ofPath?, hsplit, Option.map_eq_some_iff] at h
    obtain ⟨a, ha, rfl⟩ := h
    rw [eq_of_splitPath_none hsplit]
    exact Attribute.eq_of_ofLabel? ha
  · simp only [ofPath?, hsplit, Option.bind_eq_some_iff, Option.map_eq_some_iff] at h
    obtain ⟨a, ha, axis, haxis, rfl⟩ := h
    rw [eq_of_splitPath_some hsplit, ← Attribute.eq_of_ofLabel? ha, ← eq_of_axisOfLabel? haxis]
    rfl

theorem get?_eq (b : Boundary) (path : String) :
    b.get? path = (Place.ofPath? path).bind (·.value? b) := by
  rcases hsplit : splitPath path with ⟨name, _ | rest⟩
  · cases ha : Attribute.ofLabel? name <;> simp [get?, Place.ofPath?, hsplit, ha, Place.value?]
  · cases ha : Attribute.ofLabel? name with
    | none => simp [get?, Place.ofPath?, hsplit, ha]
    | some a =>
      cases hvec : b.vector? a <;> cases haxis : Axis.ofLabel? rest <;>
        simp [get?, Place.ofPath?, hsplit, ha, hvec, haxis, Place.value?]

@[simp] theorem get?_path (b : Boundary) (p : Place) : b.get? p.path = p.value? b := by
  simp [get?_eq]

theorem exists_place {b : Boundary} (h : b.get? path = some w) :
    ∃ p : Place, p.path = path ∧ p.value? b = some w := by
  rw [get?_eq, Option.bind_eq_some_iff] at h
  obtain ⟨p, hp, hvalue⟩ := h
  exact ⟨p, Place.path_of_ofPath? hp, hvalue⟩

/-- A boundary has components of an attribute when its value is a vector or spells one. -/
theorem vector?_eq (b : Boundary) (a : Attribute) :
    b.vector? a = (b.value? a).bind Value.vector? := by
  cases a with
  | name => cases hname : b.name <;> simp [vector?, value?, hname, Value.vector?]
  | centre | normal | radius | pressure => rfl

-- ---------------------------------------------------------------------------
-- Places that are there
-- ---------------------------------------------------------------------------

theorem WellFormed.mem_attributes (hb : WellFormed b) :
    a ∈ b.kind.attributes ↔ (b.value? a).isSome := by
  constructor
  · exact hb.value?_isSome
  · intro h
    rw [mem_attributes_iff]
    rintro rfl
    rw [← hb.hasPressure]
    exact h

theorem stored_vector {b : Boundary} (h : b.vector? a = some vec) (vec' : Vec Float) :
    a.stored (.vector vec') = some (.vector vec') := by
  cases a with
  | name | radius => cases h
  | centre | normal | pressure => rfl

theorem Writes.isSome (hb : WellFormed b) (h : Writes b p v b') : (p.value? b).isSome := by
  cases h with
  | whole ha => exact hb.value?_isSome ha
  | component hvec => simp [Place.value?, hvec]

theorem Place.exists_vector {b : Boundary} (h : ((component a axis).value? b).isSome) :
    ∃ vec, b.vector? a = some vec := by
  simpa [Place.value?, Option.isSome_iff_exists] using h

theorem exists_writes (hb : WellFormed b) (hp : (p.value? b).isSome) (h : p.stored v = some w) :
    ∃ b', Writes b p v b' := by
  cases p with
  | whole a =>
    have ha := hb.mem_attributes.mpr hp
    obtain ⟨b', hassigns⟩ := exists_assigns ha h
    exact ⟨b', .whole ha hassigns⟩
  | component a axis =>
    obtain ⟨vec, hvec⟩ := Place.exists_vector hp
    obtain ⟨w, hw, -⟩ := Option.bind_eq_some_iff.mp (vector?_eq b a ▸ hvec)
    have ha : a ∈ b.kind.attributes := hb.mem_attributes.mpr (hw ▸ rfl)
    cases v with
    | number x =>
      obtain ⟨b', hassigns⟩ := exists_assigns ha (stored_vector hvec (vec.set axis x))
      exact ⟨b', .component hvec hassigns⟩
    | none | text | vector | list => cases h

theorem Writes.value? (h : Writes b p v b') : ∃ w, p.stored v = some w ∧ p.value? b' = some w := by
  cases h with
  | whole _ h => exact h.stored
  | component hvec h =>
    obtain ⟨w, hstored, hvalue⟩ := h.stored
    rw [stored_vector hvec] at hstored
    cases hstored
    refine ⟨_, rfl, ?_⟩
    simp [Place.value?, vector?_eq, hvalue, Value.vector?]

-- ---------------------------------------------------------------------------
-- Edits of places
-- ---------------------------------------------------------------------------

theorem run_assignComponent_of_vector {b : Boundary} (hvec : b.vector? a = some vec) (axis : Axis)
    (v : Value) : (assignComponent a.label axis.label v).run b =
      match v.number? with
      | some x => (assign a (.vector (vec.set axis x))).run b
      | none => (.error (.invalid (a.label ++ "." ++ axis.label) .number), b) := by
  cases hx : v.number? <;>
    simp [assignComponent, run_bind, Attribute.ofLabel?_label, hvec, hx, axisOfLabel?_label]

theorem Writes.run (h : Writes b p v b') :
    (set p.path v).run b = (.ok (b.dependencies.dependents p.path), b') := by
  cases h with
  | whole ha h => exact h.run_set ha
  | @component a vec axis x _ hvec h =>
    have hrun := run_assignComponent_of_vector hvec axis (.number x)
    simp only [Value.number?, h.run] at hrun
    simp only [set, Place.path, run_bind, run_get, splitPath_append (no_dot_label a), hrun,
      run_pure, h.dependencies]

theorem run_set_refused {p : Place} (hb : WellFormed b) (hp : (p.value? b).isSome)
    (h : p.stored v = none) : (set p.path v).run b = (.error (.invalid p.path p.shape), b) := by
  cases p with
  | whole a =>
    have ha := hb.mem_attributes.mpr hp
    show (set a.label v).run b = _
    rw [run_set_label ha, run_assign_refused ha h]
    rfl
  | component a axis =>
    obtain ⟨vec, hvec⟩ := Place.exists_vector hp
    have hrun := run_assignComponent_of_vector hvec axis v
    rw [Option.map_eq_none_iff.mp h] at hrun
    simp only [set, Place.path, run_bind, run_get, splitPath_append (no_dot_label a), hrun]
    rfl

theorem run_set_present {p : Place} (hb : WellFormed b) (hp : p.value? b = some w) (v : Value) :
    (∃ b', Writes b p v b' ∧
        (set p.path v).run b = (.ok (b.dependencies.dependents p.path), b')) ∨
      p.stored v = none ∧ (set p.path v).run b = (.error (.invalid p.path p.shape), b) := by
  have hsome : (p.value? b).isSome := by simp [hp]
  cases hstored : p.stored v with
  | some w =>
    obtain ⟨b', hwrites⟩ := exists_writes hb hsome hstored
    exact .inl ⟨b', hwrites, hwrites.run⟩
  | none => exact .inr ⟨rfl, run_set_refused hb hsome hstored⟩

-- ---------------------------------------------------------------------------
-- Edits of what is not there
-- ---------------------------------------------------------------------------

theorem Misplaced.get?_eq_none (h : Misplaced b path v) : b.get? path = none := by
  obtain ⟨a, rest, rfl, -, hrest, -⟩ := h
  simp [get?_eq, Place.ofPath?, splitPath_append (no_dot_label a), axisOfLabel?_eq_none.mpr hrest]

theorem run_set_below {b : Boundary} (hvec : b.vector? a = some vec) {rest : String}
    (hrest : Axis.ofLabel? rest = none) (v : Value) :
    (set (a.label ++ "." ++ rest) v).run b =
      (.error (match v.number? with
        | some _ => .unknown b.kind (a.label ++ "." ++ rest)
        | none => .invalid (a.label ++ "." ++ rest) .number), b) := by
  simp only [set, run_bind, run_get, splitPath_append (no_dot_label a)]
  cases hx : v.number? <;>
    simp [assignComponent, run_bind, Attribute.ofLabel?_label, hvec, hx, hrest]

theorem run_set_unnamed (hb : WellFormed b) (h : b.get? path = none)
    (hbelow : ¬ ∃ (a : Attribute) (rest : String), path = a.label ++ "." ++ rest ∧
      (b.vector? a).isSome) (v : Value) :
    (set path v).run b = (.error (.unknown b.kind path), b) := by
  rcases hsplit : splitPath path with ⟨name, _ | rest⟩
  · have hname : name = path := (eq_of_splitPath_none hsplit).symm
    have hfind : b.kind.attributes.find? (·.label = path) = none := by
      rw [List.find?_eq_none]
      intro a ha hlabel
      obtain ⟨w, hw⟩ := Option.isSome_iff_exists.mp (hb.value?_isSome ha)
      have hget := get?_path b (.whole a)
      simp only [Place.path, of_decide_eq_true hlabel, h, Place.value?, hw] at hget
      cases hget
    simp only [set, run_bind, run_get, hsplit, hname, hfind]
    rfl
  · have hnone : (Attribute.ofLabel? name).bind (fun a => (b.vector? a).map (a, ·)) = none := by
      rw [Option.bind_eq_none_iff]
      intro a ha
      rw [Option.map_eq_none_iff]
      by_contra hvec
      refine hbelow ⟨a, rest, ?_, Option.isSome_iff_ne_none.mpr hvec⟩
      rw [Attribute.eq_of_ofLabel? ha]
      exact eq_of_splitPath_some hsplit
    simp only [set, assignComponent, run_bind, run_get, hsplit, hnone]
    rw [eq_of_splitPath_some hsplit]
    rfl

theorem run_set_absent (hb : WellFormed b) (h : b.get? path = none) (v : Value) :
    (¬ Misplaced b path v ∧ (set path v).run b = (.error (.unknown b.kind path), b)) ∨
      Misplaced b path v ∧ (set path v).run b = (.error (.invalid path .number), b) := by
  by_cases hbelow : ∃ (a : Attribute) (rest : String), path = a.label ++ "." ++ rest ∧
      (b.vector? a).isSome
  · obtain ⟨a, rest, rfl, hsome⟩ := hbelow
    obtain ⟨vec, hvec⟩ := Option.isSome_iff_exists.mp hsome
    have hrest : Axis.ofLabel? rest = none := by
      cases haxis : Axis.ofLabel? rest with
      | none => rfl
      | some axis =>
        have hget := get?_path b (.component a axis)
        rw [Place.path, eq_of_axisOfLabel? haxis, h, Place.value?, hvec] at hget
        cases hget
    rw [run_set_below hvec hrest]
    cases hx : v.number? with
    | some x => exact .inl ⟨fun ⟨_, _, _, _, _, hnumber⟩ => (nomatch hx ▸ hnumber), rfl⟩
    | none => exact .inr ⟨⟨a, rest, rfl, hsome, axisOfLabel?_eq_none.mp hrest, hx⟩, rfl⟩
  · refine .inl ⟨?_, run_set_unnamed hb h hbelow v⟩
    rintro ⟨a, rest, hpath, hsome, -⟩
    exact hbelow ⟨a, rest, hpath, hsome⟩

/-- An edit that is accepted is one of a place that is there. -/
theorem writes_of_set (hb : WellFormed b) (h : (set path v).run b = (.ok affected, b')) :
    affected = b.dependencies.dependents path ∧ ∃ p : Place, p.path = path ∧ Writes b p v b' := by
  cases hget : b.get? path with
  | some w =>
    obtain ⟨p, rfl, hvalue⟩ := exists_place hget
    rcases run_set_present hb hvalue v with ⟨b'', hwrites, hrun⟩ | ⟨-, hrun⟩ <;>
      rw [hrun] at h <;> cases h
    exact ⟨rfl, p, rfl, hwrites⟩
  | none =>
    rcases run_set_absent hb hget v with ⟨-, hrun⟩ | ⟨-, hrun⟩ <;> rw [hrun] at h <;> cases h

-- ---------------------------------------------------------------------------
-- Refusals
-- ---------------------------------------------------------------------------

/-- An edit is refused as unknown exactly when there is nothing to read at its path, but for a
component that no vector has and a value that is no number: that is taken for a wrong value. Any
other wrong value is one for what is there. -/
theorem set_unknown_iff (hb : Reachable b) (path : String) (v : Value) :
    ((∃ k p, ((set path v).run b).1 = .error (.unknown k p)) ↔
        b.get? path = none ∧ ¬ Misplaced b path v) ∧
      (∀ p expected, ((set path v).run b).1 = .error (.invalid p expected) →
        (b.get? path).isSome ∨ Misplaced b path v) ∧
      (Misplaced b path v →
        b.get? path = none ∧ ((set path v).run b).1 = .error (.invalid path .number)) := by
  cases hget : b.get? path with
  | some w =>
    obtain ⟨p, rfl, hvalue⟩ := exists_place hget
    have hplaced : ¬ Misplaced b p.path v := by
      intro h
      rw [h.get?_eq_none] at hget
      cases hget
    refine ⟨iff_of_false ?_ (by simp), fun _ _ _ => .inl rfl, fun h => absurd h hplaced⟩
    rintro ⟨k, s, h⟩
    rcases run_set_present hb.wellFormed hvalue v with ⟨_, -, hrun⟩ | ⟨-, hrun⟩ <;>
      rw [hrun] at h <;> cases h
  | none =>
    rcases run_set_absent hb.wellFormed hget v with ⟨hplaced, hrun⟩ | ⟨hplaced, hrun⟩ <;> rw [hrun]
    · refine ⟨iff_of_true ⟨_, _, rfl⟩ ⟨rfl, hplaced⟩, ?_, fun h => absurd h hplaced⟩
      rintro _ _ ⟨⟩
    · refine ⟨iff_of_false ?_ fun h => h.2 hplaced, fun _ _ _ => .inr hplaced, fun _ => ⟨rfl, rfl⟩⟩
      rintro ⟨_, _, ⟨⟩⟩

theorem set_unknown_iff_mistyped : ∃ b : Boundary, b.pressure = some (.text "ambient") ∧
    ∃ k p, ((set "Pressure.x" (.number 1.0)).run b).1 = .error (.unknown k p) := by
  let b := (new .inlet).withPressure (.text "ambient")
  have hb : Reachable b := .change (.pressure (.text "ambient")) (.new .inlet)
  have hplaced : ¬ Misplaced b "Pressure.x" (.number 1.0) := fun ⟨_, _, _, _, _, h⟩ => nomatch h
  exact ⟨b, rfl, (set_unknown_iff hb "Pressure.x" (.number 1.0)).1.mpr ⟨rfl, hplaced⟩⟩

/-- A text for a component that no vector has is refused as if the component were there. -/
theorem set_unknown_not_iff : ¬ ∀ b path v, Reachable b →
    ((∃ k p, ((set path v).run b).1 = .error (.unknown k p)) ↔ b.get? path = none) := by
  intro h
  obtain ⟨k, p, herror⟩ := (h (new .plain) "Centre.w" (.text "east") (.new .plain)).mpr rfl
  have hrun : ((set "Centre.w" (.text "east")).run (new .plain)).1 =
    .error (.invalid "Centre.w" .number) := rfl
  rw [hrun] at herror
  cases herror

theorem eq_of_refused (h : (set path v).run b = (.error fault, b')) : b' = b := by
  rcases run_set path v b with ⟨_, _, _, -, -, hrun⟩ | ⟨_, hrun⟩ <;> rw [hrun] at h <;> cases h
  rfl

theorem run_accepted (b : Boundary) (edits : List (String × Value)) :
    (setAll (accepted b edits)).run b = (.ok (), edited b edits) := by
  induction edits generalizing b with
  | nil => rfl
  | cons edit rest ih =>
    obtain ⟨path, v⟩ := edit
    rcases hrun : (set path v).run b with ⟨fault | affected, b'⟩
    · obtain rfl := eq_of_refused hrun
      simp only [accepted, edited, hrun, ih]
    · simp only [accepted, edited, hrun, setAll, run_bind, ih]

theorem edited_of_setAll (h : (setAll edits).run b = (.ok (), b')) : edited b edits = b' := by
  induction edits generalizing b with
  | nil => cases h; rfl
  | cons edit rest ih =>
    obtain ⟨path, v⟩ := edit
    obtain ⟨_, -, ⟨⟩⟩ | ⟨affected, b₁, hrun, h⟩ := bind_cases h
    rw [edited, hrun]
    exact ih h

theorem accepted_sublist (b : Boundary) (edits : List (String × Value)) :
    (accepted b edits).Sublist edits := by
  induction edits generalizing b with
  | nil => exact .slnil
  | cons edit rest ih =>
    obtain ⟨path, v⟩ := edit
    rw [accepted]
    split
    · exact (ih _).cons_cons _
    · exact (ih _).cons _

/-- An edit that is refused changes nothing, so that refused edits can be left out. -/
theorem edited_accepted (b : Boundary) :
    (∀ path v fault b', (set path v).run b = (.error fault, b') → b' = b) ∧
      ∀ edits, (accepted b edits).Sublist edits ∧
        (setAll (accepted b edits)).run b = (.ok (), edited b edits) ∧
        edited b (accepted b edits) = edited b edits :=
  ⟨fun _ _ _ _ => eq_of_refused, fun edits =>
    ⟨accepted_sublist b edits, run_accepted b edits, edited_of_setAll (run_accepted b edits)⟩⟩

theorem edited_accepted_gap : ∃ b : Boundary, b.radius = 2.0 ∧ b.pressure = some (.number 1.0) ∧
    edited b [("Pressure", .list [.none]), ("Radius", .number 3.0)] =
      edited b [("Radius", .number 3.0)] := by
  let b := ((new .inlet).withRadius 2.0).withPressure (.number 1.0)
  have hrun : (set "Pressure" (.list [.none])).run b =
      (.error (.invalid "Pressure" .noGaps), b) := rfl
  have hsame : ((set "Pressure" (.list [.none])).run b).2 = b :=
    (edited_accepted b).1 _ _ _ _ hrun
  refine ⟨b, rfl, rfl, ?_⟩
  rw [edited, hsame]

end SimSetup.Boundary
