import SimSetup.Proofs.Boundary.Reachable

/-!
# Boundaries from their attributes

A well-formed boundary is built again from any mapping that gives each of its attributes the value
it has, be it in so many words or by default. The mapping of all its attributes is one of these.
-/

namespace SimSetup.Boundary

-- ---------------------------------------------------------------------------
-- The mapping of a boundary
-- ---------------------------------------------------------------------------

theorem Attribute.label_injective {a a' : Attribute} (h : a.label = a'.label) : a = a' := by
  have hsome := congrArg ofLabel? h
  rw [ofLabel?_label, ofLabel?_label] at hsome
  exact Option.some.inj hsome

theorem WellFormed.value?_isSome (h : WellFormed b) (ha : a ∈ b.kind.attributes) :
    (b.value? a).isSome := by
  cases a with
  | pressure =>
    show b.pressure.isSome
    rw [h.hasPressure]
    revert ha
    cases b.kind <;> decide
  | name | centre | normal | radius => rfl

theorem mem_toAttributes_list {b : Boundary} {name : String} {v : Value} :
    (name, v) ∈ b.kind.attributes.filterMap (fun a => (b.value? a).map (a.label, ·)) ↔
      ∃ a ∈ b.kind.attributes, a.label = name ∧ b.value? a = some v := by
  simp only [List.mem_filterMap, Option.map_eq_some_iff, Prod.mk.injEq]
  constructor
  · rintro ⟨a, ha, _, hv, hname, rfl⟩
    exact ⟨a, ha, hname, hv⟩
  · rintro ⟨a, ha, hname, hv⟩
    exact ⟨a, ha, v, hv, hname, rfl⟩

theorem Kind.attributes_nodup (k : Kind) : k.attributes.Nodup := by
  cases k <;> decide

theorem distinct_toAttributes (b : Boundary) :
    (b.kind.attributes.filterMap fun a => (b.value? a).map (a.label, ·)).Pairwise
      fun e e' => ¬ compare e.1 e'.1 = .eq := by
  refine List.pairwise_filterMap.mpr (b.kind.attributes_nodup.imp ?_)
  simp only [Option.map_eq_some_iff]
  rintro a a' hne _ ⟨_, -, rfl⟩ _ ⟨_, -, rfl⟩ heq
  exact hne (Attribute.label_injective (Std.LawfulEqCmp.eq_of_compare heq))

theorem getElem?_toAttributes {b : Boundary} {key : String} {v : Value} :
    b.toAttributes[key]? = some v ↔
      ∃ a ∈ b.kind.attributes, a.label = key ∧ b.value? a = some v := by
  rw [← mem_toAttributes_list]
  constructor
  · intro h
    have hkey : key ∈ b.toAttributes := Std.ExtTreeMap.mem_iff_isSome_getElem?.mpr (h ▸ rfl)
    rw [toAttributes, Std.ExtTreeMap.mem_ofList, List.contains_iff_mem] at hkey
    obtain ⟨⟨key, w⟩, hw, rfl⟩ := List.mem_map.mp hkey
    have hsome : b.toAttributes[key]? = some w :=
      Std.ExtTreeMap.getElem?_ofList_of_mem Std.ReflCmp.compare_self (distinct_toAttributes b) hw
    rw [hsome] at h
    cases h
    exact hw
  · exact Std.ExtTreeMap.getElem?_ofList_of_mem Std.ReflCmp.compare_self (distinct_toAttributes b)

theorem WellFormed.storable_value (h : WellFormed b) (hv : b.value? a = some v) : v.Storable := by
  cases a with
  | pressure => exact h.storable v hv
  | name =>
    cases hv
    cases b.name <;> exact ⟨rfl, rfl⟩
  | centre | normal | radius => cases hv; exact ⟨rfl, rfl⟩

-- ---------------------------------------------------------------------------
-- Building from a mapping
-- ---------------------------------------------------------------------------

/-- `Gives given b`: for each attribute of `b`, `given` has its value or leaves the default. -/
def Gives (given : Attributes) (b : Boundary) : Prop :=
  ∀ a ∈ b.kind.attributes, ∀ v, b.value? a = some v → given.getD a.label a.default = v

def takeOver (b c : Boundary) : Attribute → Boundary
  | .name => { c with name := b.name }
  | .centre => { c with centre := b.centre }
  | .normal => { c with normal := b.normal }
  | .radius => { c with radius := b.radius }
  | .pressure => { c with pressure := b.pressure }

theorem takeOver_kind (b c : Boundary) (a : Attribute) : (b.takeOver c a).kind = c.kind := by
  cases a <;> rfl

theorem WellFormed.assigns_takeOver (hb : WellFormed b) (hc : c.kind = b.kind)
    (hv : b.value? a = some v) : Assigns c a v (b.takeOver c a) := by
  cases a with
  | name =>
    cases hv
    unfold takeOver
    cases b.name with
    | none => exact .unnamed
    | some s => exact .named
  | centre => cases hv; exact .centre rfl
  | normal => cases hv; exact .normal rfl
  | radius => cases hv; exact .radius rfl
  | pressure =>
    have hv : b.pressure = some v := hv
    have hk : c.kind.hasPressure = true := by rw [hc, ← hb.hasPressure, hv]; rfl
    have hassigns := Assigns.pressure hk (hb.storable v hv).noGap
    rw [(hb.storable v hv).canonical, ← hv] at hassigns
    exact hassigns

theorem WellFormed.run_assignAll (hb : WellFormed b) (hg : Gives given b)
    (has : as ⊆ b.kind.attributes) (hc : c.kind = b.kind) :
    (Boundary.assignAll given as).run c = (.ok (), as.foldl b.takeOver c) := by
  induction as generalizing c with
  | nil => rfl
  | cons a as ih =>
    obtain ⟨ha, has⟩ := List.cons_subset.mp has
    obtain ⟨v, hv⟩ := Option.isSome_iff_exists.mp (hb.value?_isSome ha)
    have hassigns := hb.assigns_takeOver hc hv
    rw [Boundary.assignAll, run_bind, hg a ha v hv, hassigns.run]
    exact ih has ((takeOver_kind b c a).trans hc)

theorem WellFormed.foldl_takeOver (hb : WellFormed b) :
    b.kind.attributes.foldl b.takeOver (Boundary.new b.kind) = b := by
  obtain ⟨k, name, centre, normal, radius, pressure, dependencies⟩ := b
  obtain rfl : dependencies = k.dependencies := hb.dependencies
  cases k with
  | plain =>
    obtain rfl : pressure = none := Option.not_isSome_iff_eq_none.mp (by simp [hb.hasPressure]; rfl)
    rfl
  | sinusoidalPressure | inlet | outlet => rfl

theorem WellFormed.ofAttributes_gives (hb : WellFormed b)
    (hkeys : ∀ key ∈ given, b.kind.recognizes key = true) (hg : Gives given b) :
    ofAttributes b.kind given = .ok b := by
  refine ofAttributes_eq_ok.mpr ⟨?_, ?_⟩
  · rw [List.find?_eq_none]
    intro key hkey
    simp [hkeys key (Std.ExtTreeMap.mem_keys.mp hkey)]
  · have hkind : (new b.kind).kind = b.kind := rfl
    rw [hb.run_assignAll hg (List.Subset.refl _) hkind, hb.foldl_takeOver]

-- ---------------------------------------------------------------------------
-- There and back
-- ---------------------------------------------------------------------------

theorem recognizes_iff {k : Kind} {key : String} :
    k.recognizes key = true ↔ ∃ a ∈ k.attributes, a.label = key := by
  simp [Kind.recognizes]

/-- A value can only be missing for an attribute that the kind does not have. -/
theorem WellFormed.mem_toAttributes (hb : WellFormed b) (key : String) :
    key ∈ b.toAttributes ↔ b.kind.recognizes key = true := by
  rw [Std.ExtTreeMap.mem_iff_isSome_getElem?, Option.isSome_iff_exists, recognizes_iff]
  simp only [getElem?_toAttributes]
  constructor
  · rintro ⟨v, a, ha, hlabel, -⟩
    exact ⟨a, ha, hlabel⟩
  · rintro ⟨a, ha, hlabel⟩
    obtain ⟨v, hv⟩ := Option.isSome_iff_exists.mp (hb.value?_isSome ha)
    exact ⟨v, a, ha, hlabel, hv⟩

theorem gives_toAttributes (b : Boundary) : Gives b.toAttributes b := by
  intro a ha v hv
  rw [Std.ExtTreeMap.getD_eq_getD_getElem?, getElem?_toAttributes.mpr ⟨a, ha, rfl, hv⟩]
  rfl

/-- A boundary that can come about maps each attribute of its kind to a value, and the same boundary
is built from that mapping. -/
theorem ofAttributes_toAttributes (hb : Reachable b) :
    (∀ key, key ∈ b.toAttributes ↔ b.kind.recognizes key = true) ∧
      ofAttributes b.kind b.toAttributes = .ok b := by
  have hwell := hb.wellFormed
  refine ⟨hwell.mem_toAttributes, ?_⟩
  exact hwell.ofAttributes_gives (fun key hkey => (hwell.mem_toAttributes key).mp hkey)
    (gives_toAttributes b)

theorem ofAttributes_toAttributes_nested : ∃ b : Boundary,
    b.pressure = some (.list [.vector ⟨1.0, 2.0, 3.0⟩, .text "tag"]) ∧
      ofAttributes .outlet b.toAttributes = .ok b := by
  let given : Value := .list [.list [.number 1.0, .number 2.0, .number 3.0], .text "tag"]
  let b := (Change.set "Pressure" given).apply (new .outlet)
  have hb : Reachable b := .change (.set "Pressure" given) (.new .outlet)
  exact ⟨b, rfl, (ofAttributes_toAttributes hb).2⟩

end SimSetup.Boundary
