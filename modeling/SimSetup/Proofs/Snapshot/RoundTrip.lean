import SimSetup.Proofs.Boundary.Attributes
import SimSetup.Proofs.Snapshot.Record
import SimSetup.Snapshot.Document

/-!
# Snapshots come back

A list of boundaries that can come about has a document, and reading the document builds the same
list. Of the text of a document only this is used, that reading it gives back the same tree.
-/

namespace SimSetup.Snapshot

open Boundary (Attributes Attribute Gives Kind Reachable Value WellFormed)
open Toml (Same SameItems Table)

-- ---------------------------------------------------------------------------
-- The record of a boundary
-- ---------------------------------------------------------------------------

theorem isAttributeKey_label (a : Attribute) : Record.isAttributeKey a.label = true := by
  cases a <;> decide

theorem getElem?_given (r : Record) (key : String) :
    r.given[key]? = r.attributes[key]?.or (if key ∈ r.unset then some .none else none) := by
  unfold Record.given
  generalize r.attributes = given
  induction r.unset generalizing given with
  | nil => simp
  | cons name names ih =>
    rw [List.foldl_cons, ih, Std.ExtTreeMap.getElem?_insertIfNew]
    by_cases hname : name = key
    · subst hname
      by_cases hmem : name ∈ given
      · simp [hmem]
      · simp [hmem]
    · have hkey : ¬ key = name := fun heq => hname heq.symm
      simp [hname, hkey]

theorem attributes_ofBoundary {b : Boundary} {key : String} {v : Value} :
    (Record.ofBoundary b).attributes[key]? = some v ↔
      v.isNone = false ∧ ∃ a ∈ b.kind.attributes, a.label = key ∧ b.value? a = some v := by
  rw [← Boundary.getElem?_toAttributes]
  simp [Record.ofBoundary, Option.filter_eq_some_iff, and_comm]

theorem unset_ofBoundary (b : Boundary) (key : String) :
    key ∈ (Record.ofBoundary b).unset ↔ Record.defaultsToNone b.kind key = false ∧
      ∃ a ∈ b.kind.attributes, a.label = key ∧ b.value? a = some .none := by
  rw [← Boundary.getElem?_toAttributes, Record.ofBoundary, Std.ExtTreeMap.mem_keys,
    Std.ExtTreeMap.mem_iff_isSome_getElem?, Std.ExtTreeMap.getElem?_filter',
    Option.isSome_iff_exists]
  simp only [Option.filter_eq_some_iff, Bool.and_eq_true, Bool.not_eq_true', Value.isNone_iff]
  constructor
  · rintro ⟨v, hv, rfl, hdefault⟩
    exact ⟨hdefault, hv⟩
  · rintro ⟨hdefault, hv⟩
    exact ⟨_, hv, rfl, hdefault⟩

theorem tidy_ofBoundary (hb : WellFormed b) : (Record.ofBoundary b).Tidy := by
  have hkeys : ∀ key ∈ (Record.ofBoundary b).attributes, Record.isAttributeKey key = true := by
    intro key hkey
    obtain ⟨v, hv⟩ := Option.isSome_iff_exists.mp (Std.ExtTreeMap.mem_iff_isSome_getElem?.mp hkey)
    obtain ⟨-, a, -, rfl, -⟩ := attributes_ofBoundary.mp hv
    exact isAttributeKey_label a
  refine ⟨fun key v hv => ?_, fun h => absurd (hkeys _ h) (by decide),
    fun h => absurd (hkeys _ h) (by decide)⟩
  have hv := Std.ExtTreeMap.mem_toList_iff_getElem?_eq_some.mp hv
  obtain ⟨hnone, a, -, -, hvalue⟩ := attributes_ofBoundary.mp hv
  exact ⟨hnone, hb.storable_value hvalue⟩

theorem defaultsToNone_label {k : Kind} (ha : a ∈ k.attributes) :
    Record.defaultsToNone k a.label = a.default.isNone := by
  revert ha
  cases k <;> cases a <;> decide

theorem gives_ofBoundary (b : Boundary) : Gives (Record.ofBoundary b).given b := by
  intro a ha v hv
  rw [Std.ExtTreeMap.getD_eq_getD_getElem?, getElem?_given]
  cases hnone : v.isNone with
  | false =>
    rw [attributes_ofBoundary.mpr ⟨hnone, a, ha, rfl, hv⟩]
    rfl
  | true =>
    obtain rfl := Value.isNone_iff.mp hnone
    have habsent : (Record.ofBoundary b).attributes[a.label]? = none := by
      refine Option.eq_none_iff_forall_ne_some.mpr fun w hw => ?_
      obtain ⟨hsome, a', -, hlabel, hw⟩ := attributes_ofBoundary.mp hw
      rw [Attribute.label_injective hlabel, hv] at hw
      cases hw
      cases hsome
    rw [habsent, Option.none_or]
    have hunset := unset_ofBoundary b a.label
    rw [defaultsToNone_label ha] at hunset
    cases hdefault : a.default.isNone with
    | false =>
      rw [if_pos (hunset.mpr ⟨hdefault, a, ha, rfl, hv⟩)]
      rfl
    | true =>
      rw [if_neg fun hmem => by simp [hdefault] at hunset; exact hunset hmem]
      exact Value.isNone_iff.mp hdefault

theorem recognizes_given {b : Boundary} (h : key ∈ (Record.ofBoundary b).given) :
    b.kind.recognizes key = true := by
  rw [Boundary.recognizes_iff]
  rw [Std.ExtTreeMap.mem_iff_isSome_getElem?, getElem?_given] at h
  cases hv : (Record.ofBoundary b).attributes[key]? with
  | some v =>
    obtain ⟨-, a, ha, hlabel, -⟩ := attributes_ofBoundary.mp hv
    exact ⟨a, ha, hlabel⟩
  | none =>
    have hmem : key ∈ (Record.ofBoundary b).unset := by simpa [hv] using h
    obtain ⟨-, a, ha, hlabel, -⟩ := (unset_ofBoundary b key).mp hmem
    exact ⟨a, ha, hlabel⟩

theorem build_ofBoundary (hb : WellFormed b) : (Record.ofBoundary b).build = .ok b :=
  hb.ofAttributes_gives (fun _ => recognizes_given) (gives_ofBoundary b)

-- ---------------------------------------------------------------------------
-- Lists of boundaries
-- ---------------------------------------------------------------------------

variable {bs : List Boundary} {ts : List Table}

/-- Reading the text of a document gives back its tree. -/
def Codec.Keeps (c : Codec) (t : Table) : Prop :=
  ∃ u, c.read (c.write t) = some u ∧ Same (.table t) (.table u)

/-- The characters that are written tell whether a tree is kept; no text need be made of them. -/
theorem keeps_toml_iff {t : Table} : toml.Keeps t ↔
    ∃ u ∈ (Toml.document.run? (Toml.Outline.ofTable t).write).bind Toml.Outline.toTable?,
      Same (.table t) (.table u) := by
  simp [Codec.Keeps, toml, Toml.read, Toml.write]

instance (t : Table) : Decidable (toml.Keeps t) := decidable_of_iff _ keeps_toml_iff.symm

theorem encode_records (h : ∀ b ∈ bs, WellFormed b) :
    ∃ ts, bs.mapM (fun b => (Record.ofBoundary b).encode) = some ts :=
  exists_mapM_iff.mpr fun b hb => (tidy_ofBoundary (h b hb)).encode

theorem decode_records (h : ∀ b ∈ bs, WellFormed b)
    (he : bs.mapM (fun b => (Record.ofBoundary b).encode) = some ts)
    (hs : SameItems (ts.map .table) ws) :
    ws.mapM Record.decode = some (bs.map Record.ofBoundary) := by
  induction bs generalizing ts ws with
  | nil =>
    cases he
    rw [hs.nil]
    rfl
  | cons b bs ih =>
    simp only [List.mapM_cons, bind, Option.bind_eq_some_iff, pure, Option.some.injEq] at he
    obtain ⟨t, ht, ts, hts, rfl⟩ := he
    obtain ⟨w, rest, rfl, hw, hrest⟩ := hs.cons
    have hb := (tidy_ofBoundary (h b (by simp))).decode ht hw
    have hbs := ih (fun b hb => h b (by simp [hb])) hts hrest
    simp [List.mapM_cons, hb, hbs]

theorem buildFrom_ofBoundary (h : ∀ b ∈ bs, WellFormed b) (index : Nat) :
    buildFrom index (bs.map Record.ofBoundary) = .ok bs := by
  induction bs generalizing index with
  | nil => rfl
  | cons b bs ih =>
    have hb := build_ofBoundary (h b (by simp))
    have hbs := ih (fun b hb => h b (by simp [hb])) (index + 1)
    simp [buildFrom, hb, hbs, Except.map]

theorem decode_same (h : ∀ b ∈ bs, WellFormed b) (he : encode bs = some t)
    (hs : Same (.table t) (.table u)) : decode u = some (bs.map Record.ofBoundary) := by
  simp only [encode, bind, Option.bind_eq_some_iff, pure, Option.some.injEq] at he
  obtain ⟨ts, hts, rfl⟩ := he
  obtain ⟨_, ordered, ⟨⟩, hperm, hsame⟩ := hs.table
  obtain ⟨w, rest, rfl, hw, hrest⟩ := hsame.cons
  cases hrest.nil
  obtain rfl := hperm.eq_singleton
  obtain ⟨ws, rfl, hws⟩ := hw.array
  simpa [decode] using decode_records h hts hws

/-- Boundaries that can come about are written, and they are read back from a text that keeps the
tree. -/
theorem readWith_writeWith (c : Codec) (h : ∀ b ∈ bs, Reachable b) :
    ∃ t, encode bs = some t ∧ writeWith c bs = .ok (c.write t) ∧
      (c.Keeps t → readWith c (c.write t) = .ok bs) := by
  have hwell : ∀ b ∈ bs, WellFormed b := fun b hb => (h b hb).wellFormed
  obtain ⟨ts, hts⟩ := encode_records hwell
  refine ⟨[(recordsKey, .array (ts.map .table))], by simp [encode, hts], by
    simp [writeWith, encode, hts], ?_⟩
  rintro ⟨u, hu, hs⟩
  have hdecode := decode_same hwell (by simp [encode, hts]) hs
  simp only [readWith, hu, Option.bind_some, hdecode, build]
  exact buildFrom_ofBoundary hwell 0

def unsetAndNested : List Boundary :=
  [(Boundary.new .inlet).withPressure .none,
    (Boundary.new .outlet).withPressure
      (.list [.list [.number 80, .number 3], .list [.list [.text "x"]]])]

/-- A pressure that was unset stays so, and lists keep their depth. -/
theorem readWith_writeWith_nested : (∀ b ∈ unsetAndNested, Reachable b) ∧
    ∃ t, encode unsetAndNested = some t ∧ toml.Keeps t ∧
      writeWith toml unsetAndNested = .ok (toml.write t) ∧
      readWith toml (toml.write t) = .ok unsetAndNested := by
  have hpressure (k : Kind) (v : Value) : Reachable ((Boundary.new k).withPressure v) :=
    .change (.pressure v) (.new k)
  have hreachable : ∀ b ∈ unsetAndNested, Reachable b := by simp [unsetAndNested, hpressure]
  have hkeeps : ∀ t ∈ encode unsetAndNested, toml.Keeps t := by decide +kernel
  obtain ⟨t, ht, hwrite, hread⟩ := readWith_writeWith toml hreachable
  exact ⟨hreachable, t, ht, hkeeps t ht, hwrite, hread (hkeeps t ht)⟩

end SimSetup.Snapshot
