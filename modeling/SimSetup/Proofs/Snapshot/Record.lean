import SimSetup.Proofs.Items
import SimSetup.Proofs.Snapshot.Value
import SimSetup.Snapshot.Record

/-!
# What a document does to a record

A record is stored if its values can be, and it comes back as it was, also when its entries come
back in another order: those of the kind and the unset names are told from attributes by their keys.
-/

namespace SimSetup.Snapshot

open Boundary (Attributes Kind Value)
open Record (isAttributeKey)
open Toml (Same SameItems SameEntries Table)

-- ---------------------------------------------------------------------------
-- Entries
-- ---------------------------------------------------------------------------

structure Held (v : Value) : Prop where
  something : v.isNone = false
  storable : v.Storable

theorem Held.encode (h : Held v) : ∃ t, v.encode = some t := by
  rw [← Option.isSome_iff_exists, v.encode_isSome, h.something, h.storable.noGap]
  rfl

theorem Held.decode (h : Held v) (he : v.encode = some t) (hs : Same t t') :
    Value.decode t' = some v := by
  rw [v.comesBack t t' he hs, h.storable.canonical]

theorem encodeEntry_eq_some :
    Record.encodeEntry e = some f ↔ ∃ t, e.2.encode = some t ∧ f = (e.1, t) := by
  simp only [Record.encodeEntry, Option.map_eq_some_iff, eq_comm (a := f)]

variable {entries : List (String × Value)}

theorem encode_entries (h : ∀ e ∈ entries, Held e.2) :
    ∃ t, entries.mapM Record.encodeEntry = some t := by
  refine exists_mapM_iff.mpr fun e he => ?_
  obtain ⟨t, ht⟩ := (h e he).encode
  exact ⟨(e.1, t), encodeEntry_eq_some.mpr ⟨t, ht, rfl⟩⟩

theorem keys_entries (he : entries.mapM Record.encodeEntry = some t) :
    t.map Prod.fst = entries.map Prod.fst := by
  replace he := mapM_eq_some_iff.mp he
  induction he with
  | nil => rfl
  | cons hf _ ih =>
    obtain ⟨t, -, rfl⟩ := encodeEntry_eq_some.mp hf
    simp [ih]

theorem decode_entries (h : ∀ e ∈ entries, Held e.2)
    (he : entries.mapM Record.encodeEntry = some t) (hs : SameEntries t u) :
    u.mapM Record.decodeEntry = some entries := by
  induction entries generalizing t u with
  | nil =>
    cases he
    rw [hs.nil]
    rfl
  | cons e entries ih =>
    simp only [List.mapM_cons, bind, Option.bind_eq_some_iff, pure, Option.some.injEq] at he
    obtain ⟨f, hf, rest, hrest, rfl⟩ := he
    obtain ⟨t, ht, rfl⟩ := encodeEntry_eq_some.mp hf
    obtain ⟨w, rest', rfl, hw, hrest'⟩ := hs.cons
    have hv := (h e (by simp)).decode ht hw
    have hvs := ih (fun e he => h e (by simp [he])) hrest hrest'
    simp [List.mapM_cons, Record.decodeEntry, hv, hvs]

-- ---------------------------------------------------------------------------
-- Records
-- ---------------------------------------------------------------------------

/-- What the records of boundaries are like: each value can be stored, and no attribute is named
like one of the other keys. -/
structure Record.Tidy (r : Record) : Prop where
  held : ∀ name v, (name, v) ∈ r.attributes.toList → Held v
  kindKey : kindKey ∉ r.attributes
  unsetKey : unsetKey ∉ r.attributes

def unsetEntry (names : List String) : Table :=
  if names.isEmpty then [] else [(Record.unsetKey, .array (names.map .string))]

theorem Record.encode_eq_some {r : Record} : r.encode = some t ↔
    ∃ attributes, r.attributes.toList.mapM encodeEntry = some attributes ∧
      t = (Record.kindKey, .string r.kind.tag) :: (unsetEntry r.unset ++ attributes) := by
  simp only [Record.encode, bind, Option.bind_eq_some_iff, pure, Option.some.injEq, unsetEntry,
    eq_comm (a := t)]

theorem Record.Tidy.encode {r : Record} (h : r.Tidy) : ∃ t, r.encode = some t := by
  obtain ⟨attributes, ha⟩ := encode_entries fun e => h.held e.1 e.2
  exact ⟨_, Record.encode_eq_some.mpr ⟨attributes, ha, rfl⟩⟩

/-- A mapping does not depend on the order in which its entries are read. -/
theorem ofList_of_perm {m : Attributes} (h : m.toList.Perm l) : Std.ExtTreeMap.ofList l = m := by
  have hd : l.Pairwise fun a b => ¬ compare a.1 b.1 = .eq :=
    h.pairwise Std.ExtTreeMap.distinct_keys_toList fun hab hba => hab (Std.OrientedCmp.eq_symm hba)
  refine Std.ExtTreeMap.ext_getElem? fun key => ?_
  cases hm : m[key]? with
  | some v =>
    have hmem := h.mem_iff.mp (Std.ExtTreeMap.mem_toList_iff_getElem?_eq_some.mpr hm)
    exact Std.ExtTreeMap.getElem?_ofList_of_mem Std.ReflCmp.compare_self hd hmem
  | none =>
    refine Std.ExtTreeMap.getElem?_ofList_of_contains_eq_false ?_
    refine Bool.eq_false_iff.mpr fun hcontains => ?_
    have hkey := List.contains_iff_mem.mp hcontains
    obtain ⟨e, he, rfl⟩ := List.mem_map.mp hkey
    rw [Std.ExtTreeMap.mem_toList_iff_getElem?_eq_some.mp (h.mem_iff.mpr he)] at hm
    cases hm

theorem sameItems_strings {names : List String} (h : SameItems (names.map .string) ws) :
    ws = names.map .string := by
  induction names generalizing ws with
  | nil => exact h.nil
  | cons name names ih =>
    obtain ⟨w, rest, rfl, hw, hrest⟩ := h.cons
    rw [hw.eq_string, ih hrest, List.map_cons]

theorem decodeUnset_strings (names : List String) :
    Record.decodeUnset (some (.array (names.map .string))) = some names := by
  rw [Record.decodeUnset, mapM_eq_some_iff, List.forall₂_map_left_iff, List.forall₂_same]
  simp

theorem Record.Tidy.attributeKey {r : Record} (h : r.Tidy) (hkey : key ∈ r.attributes) :
    isAttributeKey key = true := by
  have hkind : key ≠ Record.kindKey := fun heq => h.kindKey (heq ▸ hkey)
  have hunset : key ≠ Record.unsetKey := fun heq => h.unsetKey (heq ▸ hkey)
  simp [isAttributeKey, hkind, hunset]

section
variable (kind : Toml.Value) (names : List String) {attributes : Table}

theorem filter_attributes (h : ∀ e ∈ attributes, isAttributeKey e.1 = true) :
    ((Record.kindKey, kind) :: (unsetEntry names ++ attributes)).filter
      (fun (key, _) => isAttributeKey key) = attributes := by
  have hunset : (unsetEntry names).filter (fun (key, _) => isAttributeKey key) = [] := by
    unfold unsetEntry
    split <;> rfl
  rw [List.filter_cons_of_neg (by simp [isAttributeKey]), List.filter_append, hunset,
    List.filter_eq_self.mpr h, List.nil_append]

theorem nodup_keys (h : ∀ e ∈ attributes, isAttributeKey e.1 = true)
    (hd : (attributes.map Prod.fst).Nodup) :
    (((Record.kindKey, kind) :: (unsetEntry names ++ attributes)).map Prod.fst).Nodup := by
  have hkey : ∀ key ∈ attributes.map Prod.fst, isAttributeKey key = true := by
    intro key hkey
    obtain ⟨e, he, rfl⟩ := List.mem_map.mp hkey
    exact h e he
  have hkind : Record.kindKey ∉ attributes.map Prod.fst :=
    fun hmem => absurd (hkey _ hmem) (by decide)
  have hunset : Record.unsetKey ∉ attributes.map Prod.fst := fun hmem =>
    absurd (hkey _ hmem) (by decide)
  have hne : Record.kindKey ≠ Record.unsetKey := by decide
  unfold unsetEntry
  split <;> simp_all

theorem lookup_unset (h : ∀ e ∈ attributes, isAttributeKey e.1 = true) :
    ((Record.kindKey, kind) :: (unsetEntry names ++ attributes)).lookup Record.unsetKey =
      (unsetEntry names).lookup Record.unsetKey := by
  have hne : (Record.unsetKey == Record.kindKey) = false := by decide
  have hnone : attributes.lookup Record.unsetKey = none := by
    rw [List.lookup_eq_none_iff]
    intro e he
    refine bne_iff_ne.mpr fun heq => ?_
    exact absurd (heq ▸ h e he) (by decide)
  simp only [List.lookup_cons, hne, List.lookup_append, hnone, Option.or_none]

end

theorem Record.Tidy.decode {r : Record} (h : r.Tidy) (he : r.encode = some t)
    (hs : Same (.table t) w) : Record.decode w = some r := by
  obtain ⟨attributes, ha, rfl⟩ := Record.encode_eq_some.mp he
  obtain ⟨u, ordered, rfl, hperm, hsame⟩ := hs.table
  have hkeys : attributes.map Prod.fst = r.attributes.keys := by
    rw [keys_entries ha, Std.ExtTreeMap.map_fst_toList_eq_keys]
  have hattributes : ∀ e ∈ attributes, isAttributeKey e.1 = true := fun e hmem => by
    refine h.attributeKey ?_
    rw [← Std.ExtTreeMap.mem_keys, ← hkeys]
    exact List.mem_map_of_mem hmem
  have hnodup : (ordered.map Prod.fst).Nodup := by
    rw [hsame.keys]
    exact nodup_keys _ _ hattributes (hkeys ▸ Std.ExtTreeMap.nodup_keys)
  have hlookup := Toml.lookup_perm hperm.symm hnodup
  have hkind : u.lookup Record.kindKey = some (.string r.kind.tag) := by
    obtain ⟨w, hw, hsw⟩ := hsame.lookup List.lookup_cons_self
    rw [← hlookup, hw, hsw.eq_string]
  have hunset : decodeUnset (u.lookup Record.unsetKey) = some r.unset := by
    have hwritten := lookup_unset (.string r.kind.tag) r.unset hattributes
    rw [← hlookup]
    cases hnames : r.unset with
    | nil =>
      rw [hnames] at hwritten hsame
      rw [hsame.lookup_none hwritten]
      rfl
    | cons name names =>
      rw [hnames] at hwritten hsame
      obtain ⟨w, hw, hsw⟩ := hsame.lookup (hwritten.trans List.lookup_cons_self)
      obtain ⟨ws, rfl, hws⟩ := hsw.array
      rw [hw, sameItems_strings hws]
      exact decodeUnset_strings _
  obtain ⟨entries, hothers, hentries⟩ : ∃ entries,
      (u.filter fun (key, _) => isAttributeKey key).mapM decodeEntry = some entries ∧
        r.attributes.toList.Perm entries := by
    have hfiltered := hsame.filter isAttributeKey
    rw [filter_attributes _ _ hattributes] at hfiltered
    exact mapM_perm (hperm.symm.filter _)
      (decode_entries (fun e => h.held e.1 e.2) ha hfiltered)
  rw [Record.decode, hkind, hunset, hothers]
  simp [Kind.decode, Kind.ofTag?_tag, ofList_of_perm hentries]

end SimSetup.Snapshot
