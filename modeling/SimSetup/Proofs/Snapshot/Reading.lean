import SimSetup.Proofs.Snapshot.Record

/-!
# How attribute values are read

A value is read as the first of four forms that fits: a number, a text, a vector, a list. Reading
the items of a list before looking for a vector comes to the same, and so whatever is read is
canonical and has no gap. Canonical form is what encoding a value and reading it back makes of it.
-/

namespace SimSetup

@[elab_as_elim]
theorem Toml.Value.inductionOn {P : Toml.Value → Prop} (string : ∀ s, P (.string s))
    (integer : ∀ n, P (.integer n)) (float : ∀ x, P (.float x)) (boolean : ∀ b, P (.boolean b))
    (datetime : ∀ d, P (.datetime d)) (array : ∀ items, (∀ t ∈ items, P t) → P (.array items))
    (table : ∀ entries, P (.table entries)) (t : Toml.Value) : P t :=
  Toml.Value.rec (motive_2 := fun items => ∀ t ∈ items, P t) (motive_3 := fun _ => True)
    (motive_4 := fun _ => True) string integer float boolean datetime array
    (fun entries _ => table entries) (by simp) (fun _ _ ht hts => by simpa using ⟨ht, hts⟩) trivial
    (fun _ _ _ _ => trivial) (fun _ _ _ => trivial) t

namespace Boundary.Value

open Snapshot (Held)

-- ---------------------------------------------------------------------------
-- The first form that fits
-- ---------------------------------------------------------------------------

def textForm : Toml.Value → Option String
  | .string s => some s
  | _ => .none

/-- A table of components, or an array of exactly three numbers. -/
def vectorForm : Toml.Value → Option (Vec Float)
  | .table entries => decodeComponents entries
  | .array [x, y, z] => do return ⟨← decodeNumber x, ← decodeNumber y, ← decodeNumber z⟩
  | _ => .none

/-- The readings of a value in the order in which they are tried, when `items` is what it is read as
in the form of a list. -/
def forms (t : Toml.Value) (items : Option (List Value)) : List (Option Value) :=
  [(decodeNumber t).map number, (textForm t).map text, (vectorForm t).map vector, items.map list]

mutual

def firstFit : Toml.Value → Option Value
  | .array items => (forms (.array items) (firstFits items)).findSome? id
  | t => (forms t .none).findSome? id

def firstFits : List Toml.Value → Option (List Value)
  | [] => some []
  | t :: ts => do return (← firstFit t) :: (← firstFits ts)

end

theorem decodeItems_eq_mapM (ts : List Toml.Value) : decodeItems ts = ts.mapM decode := by
  induction ts with
  | nil => rfl
  | cons t ts ih => rw [decodeItems, ih, List.mapM_cons]

theorem decodeItems_eq_firstFits (h : ∀ t ∈ ts, decode t = firstFit t) :
    decodeItems ts = firstFits ts := by
  induction ts with
  | nil => rfl
  | cons t ts ih => rw [decodeItems, firstFits, h t (by simp), ih fun t ht => h t (by simp [ht])]

theorem decode_eq_number_iff : decode t = some (number x) ↔ decodeNumber t = some x := by
  cases t with
  | integer | float | string | boolean | datetime | table => simp [decode, decodeNumber]
  | array items =>
    constructor
    · intro h
      obtain ⟨vs, -, hvs⟩ := Option.map_eq_some_iff.mp h
      rcases ofItems_cases vs with ⟨v, he, -⟩ | ⟨he, -⟩ <;> rw [he] at hvs <;> cases hvs
    · rintro ⟨⟩

theorem vectorForm_array_iff : vectorForm (.array ts) = some v ↔
    ts.mapM decode = some [number v.x, number v.y, number v.z] := by
  rw [mapM_eq_some_iff]
  constructor
  · intro h
    unfold vectorForm at h
    split at h
    · simp_all
    · rename_i x y z heq
      cases heq
      simp only [bind, Option.bind_eq_some_iff, pure, Option.some.injEq] at h
      obtain ⟨x, hx, y, hy, z, hz, rfl⟩ := h
      simp [decode_eq_number_iff, hx, hy, hz]
    · cases h
  · intro h
    simp only [List.forall₂_cons_right_iff, List.forall₂_nil_right_iff, decode_eq_number_iff] at h
    obtain ⟨x, _, hx, ⟨y, _, hy, ⟨z, _, hz, rfl, rfl⟩, rfl⟩, rfl⟩ := h
    simp [vectorForm, hx, hy, hz]

theorem decode_eq_firstFit (t : Toml.Value) : decode t = firstFit t := by
  induction t using Toml.Value.inductionOn with
  | string | integer | float | boolean | datetime => rfl
  | table entries =>
    cases hvector : decodeComponents entries <;>
      simp [decode, firstFit, forms, decodeNumber, textForm, vectorForm, hvector]
  | array ts ih =>
    -- one side reads the items first, the other looks for a vector first
    rw [decode, firstFit, ← decodeItems_eq_firstFits ih, decodeItems_eq_mapM]
    cases hvector : vectorForm (.array ts) with
    | some v =>
      rw [vectorForm_array_iff.mp hvector]
      simp [forms, decodeNumber, textForm, hvector, ofItems, triple?]
    | none =>
      cases hitems : ts.mapM decode with
      | none => simp [forms, decodeNumber, textForm, hvector]
      | some vs =>
        have htriple : triple? vs = .none := by
          refine Option.eq_none_iff_forall_ne_some.mpr fun v hv => ?_
          rw [triple?_eq_some.mp hv, ← vectorForm_array_iff, hvector] at hitems
          cases hitems
        simp [forms, decodeNumber, textForm, hvector, ofItems, htriple]

-- ---------------------------------------------------------------------------
-- What is read
-- ---------------------------------------------------------------------------

theorem held_ofItems {vs : List Value} (h : ∀ v ∈ vs, Held v) : Held (ofItems vs) := by
  refine ⟨isNone_ofItems vs, ?_, ?_⟩
  · rcases ofItems_cases vs with ⟨v, he, -⟩ | ⟨he, -⟩
    · rw [he]; rfl
    · have hmap : vs.map canonical = vs :=
        (List.map_congr_left (g := id) fun v hv => (h v hv).storable.canonical).trans vs.map_id
      rw [he, canonical_list, hmap, he]
  · rw [hasGap_ofItems, hasGap_list, List.any_eq_false]
    intro v hv
    simp [(h v hv).something, (h v hv).storable.noGap]

theorem held_of_decode (h : decode t = some v) : Held v := by
  induction t using Toml.Value.inductionOn generalizing v with
  | string | integer | float => cases h; exact ⟨rfl, rfl, rfl⟩
  | boolean | datetime => cases h
  | table entries =>
    obtain ⟨_, -, rfl⟩ := Option.map_eq_some_iff.mp h
    exact ⟨rfl, rfl, rfl⟩
  | array ts ih =>
    rw [decode, decodeItems_eq_mapM] at h
    obtain ⟨vs, hvs, rfl⟩ := Option.map_eq_some_iff.mp h
    refine held_ofItems fun v hv => ?_
    obtain ⟨t, ht, hdecode⟩ := (mem_mapM_iff hvs).mp hv
    exact ih t ht hdecode

inductive Numeric : Toml.Value → Prop
  | integer (n : Int) : Numeric (.integer n)
  | float (x : Float) : Numeric (.float x)

/-- What may stand in a document where the value of an attribute is expected. -/
inductive Readable : Toml.Value → Prop
  | integer (n : Int) : Readable (.integer n)
  | float (x : Float) : Readable (.float x)
  | string (s : String) : Readable (.string s)
  | table (h : ∀ axis : Axis, ∃ t, entries.lookup axis.label = some t ∧ Numeric t) :
    Readable (.table entries)
  | array (h : ∀ t ∈ items, Readable t) : Readable (.array items)

theorem numeric_iff : Numeric t ↔ ∃ x, decodeNumber t = some x := by
  constructor
  · rintro (n | x)
    · exact ⟨_, rfl⟩
    · exact ⟨_, rfl⟩
  · rintro ⟨x, hx⟩
    cases t with
    | integer n => exact .integer n
    | float x => exact .float x
    | _ => cases hx

theorem exists_decodeComponents_iff {entries : Toml.Table} :
    (∃ v, decodeComponents entries = some v) ↔
      ∀ axis : Axis, ∃ t, entries.lookup axis.label = some t ∧ Numeric t := by
  have hcomponent (axis : Axis) : (∃ t, entries.lookup axis.label = some t ∧ Numeric t) ↔
      ∃ x, (entries.lookup axis.label).bind decodeNumber = some x := by
    simp only [numeric_iff, Option.bind_eq_some_iff]
    exact ⟨fun ⟨t, ht, x, hx⟩ => ⟨x, t, ht, hx⟩, fun ⟨x, t, ht, hx⟩ => ⟨t, ht, x, hx⟩⟩
  simp only [hcomponent, decodeComponents, bind, Option.bind_eq_some_iff, pure, Option.some.injEq]
  constructor
  · rintro ⟨_, x, hx, y, hy, z, hz, rfl⟩ (_ | _ | _)
    · exact ⟨x, hx⟩
    · exact ⟨y, hy⟩
    · exact ⟨z, hz⟩
  · intro h
    obtain ⟨x, hx⟩ := h .x
    obtain ⟨y, hy⟩ := h .y
    obtain ⟨z, hz⟩ := h .z
    exact ⟨⟨x, y, z⟩, x, hx, y, hy, z, hz, rfl⟩

theorem readable_iff : Readable t ↔ ∃ v, decode t = some v := by
  induction t using Toml.Value.inductionOn with
  | string s => exact ⟨fun _ => ⟨_, rfl⟩, fun _ => .string s⟩
  | integer n => exact ⟨fun _ => ⟨_, rfl⟩, fun _ => .integer n⟩
  | float x => exact ⟨fun _ => ⟨_, rfl⟩, fun _ => .float x⟩
  | boolean | datetime =>
    constructor
    · rintro ⟨⟩
    · rintro ⟨_, ⟨⟩⟩
  | table entries =>
    have hvector : (∃ v, decode (.table entries) = some v) ↔
        ∃ v, decodeComponents entries = some v := by
      simp [decode]
    rw [hvector, exists_decodeComponents_iff]
    constructor
    · intro h
      cases h with
      | table h => exact h
    · exact .table
  | array ts ih =>
    have hitems : (∃ v, decode (.array ts) = some v) ↔ ∃ vs, ts.mapM decode = some vs := by
      simp [decode, decodeItems_eq_mapM]
    rw [hitems, exists_mapM_iff]
    constructor
    · intro h t ht
      cases h with
      | array h => exact (ih t ht).mp (h t ht)
    · exact fun h => .array fun t ht => (ih t ht).mpr (h t ht)

-- ---------------------------------------------------------------------------
-- There and back
-- ---------------------------------------------------------------------------

theorem encode_eq_none_iff {v : Value} : v.encode = .none ↔ v = none ∨ v.Gapped := by
  rw [← Option.not_isSome_iff_eq_none, encode_isSome, ← isNone_iff, ← hasGap_iff, ← Bool.or_eq_true]
  cases v.isNone || v.hasGap <;> simp

/-- A value is read in the first form that fits. One that is nothing or has a gap cannot be encoded;
any other comes back in canonical form, and so unchanged exactly if that is its form. -/
theorem decode_encode (v : Value) :
    (∀ t, decode t = firstFit t) ∧ (v.encode = .none ↔ v = none ∨ v.Gapped) ∧
      ∀ t, v.encode = some t →
        decode t = some v.canonical ∧ (decode t = some v ↔ v.canonical = v) := by
  refine ⟨decode_eq_firstFit, encode_eq_none_iff, fun t ht => ?_⟩
  have hback := v.comesBack t t ht (.refl t)
  exact ⟨hback, by rw [hback, Option.some.injEq]⟩

theorem decode_encode_nested : ∃ v t,
    v = list [list [number 1.0, number (0.0 / 0.0), number 3.0], text "bar"] ∧
      v.encode = some t ∧
      decode t = some (list [vector ⟨1.0, 0.0 / 0.0, 3.0⟩, text "bar"]) ∧ decode t ≠ some v := by
  let v := list [list [number 1.0, number (0.0 / 0.0), number 3.0], text "bar"]
  let t : Toml.Value := .array [.array [.float 1.0, .float (0.0 / 0.0), .float 3.0], .string "bar"]
  obtain ⟨hback, hsame⟩ := (decode_encode v).2.2 t rfl
  refine ⟨v, t, rfl, rfl, hback, fun h => ?_⟩
  have hcanonical : list [vector ⟨1.0, 0.0 / 0.0, 3.0⟩, text "bar"] = v := hsame.mp h
  simp [v] at hcanonical

end Boundary.Value

end SimSetup
