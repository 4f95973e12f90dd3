import SimSetup.Proofs.Boundary.Canonical
import SimSetup.Proofs.Toml.Same
import SimSetup.Snapshot.Value

/-!
# What a document does to a value

A value is stored if it is not nothing and has no gap, and it comes back in canonical form, also
when the entries of its tables come back in another order.
-/

namespace SimSetup.Boundary.Value

open Toml (Same SameItems)

theorem encode_isSome (v : Value) : v.encode.isSome = !(v.isNone || v.hasGap) := by
  induction v with
  | none | number | text | vector => rfl
  | list items ih =>
    have hitems : (encodeItems items).isSome = !(items.any fun v => v.isNone || v.hasGap) := by
      induction items with
      | nil => rfl
      | cons v vs ihs =>
        have hv := ih v (by simp)
        have hvs := ihs fun w hw => ih w (by simp [hw])
        rw [List.any_cons, Bool.not_or, ← hv, ← hvs, encodeItems]
        cases v.encode <;> cases encodeItems vs <;> rfl
    rw [hasGap_list, encode, Option.isSome_map, hitems]
    rfl

theorem encodeVector_keys (v : Vec Float) :
    encodeVector v = .table [("x", .float v.x), ("y", .float v.y), ("z", .float v.z)] := rfl

theorem decode_sameVector (h : Same (encodeVector v) t) : decode t = some (vector v) := by
  rw [encodeVector_keys] at h
  obtain ⟨u, ordered, rfl, hperm, hs⟩ := h.table
  obtain ⟨_, _, rfl, hx, hs⟩ := hs.cons
  obtain ⟨_, _, rfl, hy, hs⟩ := hs.cons
  obtain ⟨_, _, rfl, hz, hs⟩ := hs.cons
  cases hs.nil
  have hlookup := fun key => Toml.lookup_perm hperm.symm (by simp) key
  rw [hx.eq_float, hy.eq_float, hz.eq_float] at hlookup
  simp [decode, decodeComponents, Axis.label, ← hlookup, List.lookup_cons, decodeNumber]

/-- `v` comes back in canonical form. -/
def ComesBack (v : Value) : Prop :=
  ∀ t t', v.encode = some t → Same t t' → decode t' = some v.canonical

theorem decodeItems_same (ih : ∀ v ∈ items, ComesBack v) (he : encodeItems items = some ts)
    (hs : SameItems ts ws) : decodeItems ws = some (items.map canonical) := by
  induction items generalizing ts ws with
  | nil =>
    cases he
    rw [hs.nil]
    rfl
  | cons v vs ihs =>
    rw [encodeItems] at he
    simp only [bind, Option.bind_eq_some_iff, pure, Option.some.injEq] at he
    obtain ⟨t, ht, ts, hts, rfl⟩ := he
    obtain ⟨w, rest, rfl, hw, hrest⟩ := hs.cons
    have hv := ih v (by simp) t w ht hw
    have hvs := ihs (fun w hw => ih w (by simp [hw])) hts hrest
    simp [decodeItems, hv, hvs]

theorem comesBack (v : Value) : ComesBack v := by
  induction v with
  | none => rintro t t' ⟨⟩
  | number x => rintro t t' ⟨⟩ hs; rw [hs.eq_float]; rfl
  | text s => rintro t t' ⟨⟩ hs; rw [hs.eq_string]; rfl
  | vector v => rintro t t' ⟨⟩ hs; exact decode_sameVector hs
  | list items ih =>
    intro t t' he hs
    rw [encode, Option.map_eq_some_iff] at he
    obtain ⟨ts, hts, rfl⟩ := he
    obtain ⟨ws, rfl, hws⟩ := hs.array
    rw [decode, decodeItems_same ih hts hws, canonical_list]
    rfl

end SimSetup.Boundary.Value
