import Mathlib.Data.List.Permutation
import SimSetup.Toml.Value

/-!
# Trees that mean the same

A document lists plain entries before tables, so what is read back from it may list the entries of a
table in another order. Two trees are the same when they differ in nothing else. Whether they are
can be computed.
-/

namespace SimSetup.Toml

mutual

def Same : Value → Value → Prop
  | .array vs, .array ws => SameItems vs ws
  | .table t, .table u => ∃ ordered, u.Perm ordered ∧ SameEntries t ordered
  | v, w => v = w

def SameItems : List Value → List Value → Prop
  | [], [] => True
  | v :: vs, w :: ws => Same v w ∧ SameItems vs ws
  | _, _ => False

/-- The same keys in the same order, with values that are the same. -/
def SameEntries : Table → Table → Prop
  | [], [] => True
  | (k, v) :: t, (l, w) :: u => k = l ∧ Same v w ∧ SameEntries t u
  | _, _ => False

end

theorem same_array : Same (.array vs) (.array ws) ↔ SameItems vs ws := by
  simp [Same]

theorem same_table : Same (.table t) (.table u) ↔
    ∃ ordered, u.Perm ordered ∧ SameEntries t ordered := by
  simp [Same]

mutual

theorem Same.refl : (v : Value) → Same v v
  | .array vs => same_array.mpr (SameItems.refl vs)
  | .table t => same_table.mpr ⟨t, .refl t, SameEntries.refl t⟩
  | .string _ | .integer _ | .float _ | .boolean _ | .datetime _ => by simp [Same]

theorem SameItems.refl : (vs : List Value) → SameItems vs vs
  | [] => trivial
  | v :: vs => ⟨Same.refl v, SameItems.refl vs⟩

theorem SameEntries.refl : (t : Table) → SameEntries t t
  | [] => trivial
  | (_, v) :: t => ⟨rfl, Same.refl v, SameEntries.refl t⟩

end

-- ---------------------------------------------------------------------------
-- Inversion
-- ---------------------------------------------------------------------------

theorem Same.eq_string (h : Same (.string s) w) : w = .string s := by
  simpa [Same, eq_comm] using h

theorem Same.eq_float (h : Same (.float x) w) : w = .float x := by
  simpa [Same, eq_comm] using h

theorem Same.array (h : Same (.array vs) w) : ∃ ws, w = .array ws ∧ SameItems vs ws := by
  cases w with
  | array ws => exact ⟨ws, rfl, same_array.mp h⟩
  | _ => simp [Same] at h

theorem Same.table (h : Same (.table t) w) :
    ∃ u ordered, w = .table u ∧ u.Perm ordered ∧ SameEntries t ordered := by
  cases w with
  | table u =>
    obtain ⟨ordered, hperm, hs⟩ := same_table.mp h
    exact ⟨u, ordered, rfl, hperm, hs⟩
  | _ => simp [Same] at h

theorem SameItems.nil (h : SameItems [] ws) : ws = [] := by
  cases ws with
  | nil => rfl
  | cons => simp [SameItems] at h

theorem SameItems.cons (h : SameItems (v :: vs) ws) :
    ∃ w rest, ws = w :: rest ∧ Same v w ∧ SameItems vs rest := by
  cases ws with
  | nil => simp [SameItems] at h
  | cons w rest => exact ⟨w, rest, rfl, by simpa [SameItems] using h⟩

theorem SameEntries.nil (h : SameEntries [] u) : u = [] := by
  cases u with
  | nil => rfl
  | cons => simp [SameEntries] at h

theorem SameEntries.cons (h : SameEntries ((k, v) :: t) u) :
    ∃ w rest, u = (k, w) :: rest ∧ Same v w ∧ SameEntries t rest := by
  cases u with
  | nil => simp [SameEntries] at h
  | cons e rest =>
    obtain ⟨rfl, hv, ht⟩ : k = e.1 ∧ Same v e.2 ∧ SameEntries t rest := by
      simpa [SameEntries] using h
    exact ⟨e.2, rest, rfl, hv, ht⟩

theorem SameEntries.keys (h : SameEntries t u) : u.map Prod.fst = t.map Prod.fst := by
  induction t generalizing u with
  | nil => rw [h.nil]
  | cons e t ih =>
    obtain ⟨w, rest, rfl, -, ht⟩ := h.cons
    simp [ih ht]

theorem SameEntries.lookup (h : SameEntries t u) (hv : t.lookup key = some v) :
    ∃ w, u.lookup key = some w ∧ Same v w := by
  induction t generalizing u with
  | nil => cases hv
  | cons e t ih =>
    obtain ⟨k, v'⟩ := e
    obtain ⟨w, rest, rfl, hw, ht⟩ := h.cons
    rw [List.lookup_cons] at hv ⊢
    cases hkey : key == k with
    | true =>
      rw [hkey] at hv
      cases hv
      exact ⟨w, rfl, hw⟩
    | false =>
      rw [hkey] at hv
      exact ih ht hv

theorem SameEntries.lookup_none (h : SameEntries t u) (hv : t.lookup key = none) :
    u.lookup key = none := by
  have hkeys : ∀ e ∈ t.map Prod.fst, (key == e) = false := by simpa using hv
  rw [← h.keys] at hkeys
  simpa using hkeys

theorem SameEntries.filter (h : SameEntries t u) (p : String → Bool) :
    SameEntries (t.filter fun (k, _) => p k) (u.filter fun (k, _) => p k) := by
  induction t generalizing u with
  | nil => rw [h.nil]; trivial
  | cons e t ih =>
    obtain ⟨k, v⟩ := e
    obtain ⟨w, rest, rfl, hv, ht⟩ := h.cons
    cases hp : p k <;> simp [hp, SameEntries, hv, ih ht]

-- ---------------------------------------------------------------------------
-- Decision
-- ---------------------------------------------------------------------------

inductive Atom
  | string (s : String)
  | integer (n : Int)
  | float (x : Float)
  | boolean (b : Bool)
  | datetime (d : DateTime)
  deriving DecidableEq

def Value.atom? : Value → Option Atom
  | .string s => some (.string s)
  | .integer n => some (.integer n)
  | .float x => some (.float x)
  | .boolean b => some (.boolean b)
  | .datetime d => some (.datetime d)
  | .array _ | .table _ => none

mutual

def agree : Value → Value → Bool
  | .array vs, .array ws => agreeItems vs ws
  -- tables are small, so every order of the entries can be tried
  | .table t, .table u => u.permutations'.any fun ordered => agreeEntries t ordered
  | v, w => v.atom?.any fun a => w.atom? = some a

def agreeItems : List Value → List Value → Bool
  | [], [] => true
  | v :: vs, w :: ws => agree v w && agreeItems vs ws
  | _, _ => false

def agreeEntries : Table → Table → Bool
  | [], [] => true
  | (k, v) :: t, (l, w) :: u => k = l && agree v w && agreeEntries t u
  | _, _ => false

end

mutual

theorem agree_iff : (v w : Value) → (agree v w = true ↔ Same v w)
  | .array vs, w => by
    cases w with
    | array ws => rw [agree, same_array, agreeItems_iff vs ws]
    | _ => simp [agree, Same, Value.atom?]
  | .table t, w => by
    cases w with
    | table u => simp [agree, same_table, agreeEntries_iff t, List.perm_comm]
    | _ => simp [agree, Same, Value.atom?]
  | .string _, w | .integer _, w | .float _, w | .boolean _, w | .datetime _, w => by
    cases w <;> simp [agree, Same, Value.atom?, eq_comm]

theorem agreeItems_iff : (vs ws : List Value) → (agreeItems vs ws = true ↔ SameItems vs ws)
  | [], ws => by cases ws <;> simp [agreeItems, SameItems]
  | v :: vs, ws => by
    cases ws with
    | nil => simp [agreeItems, SameItems]
    | cons w ws => simp [agreeItems, SameItems, agree_iff v w, agreeItems_iff vs ws]

theorem agreeEntries_iff : (t u : Table) → (agreeEntries t u = true ↔ SameEntries t u)
  | [], u => by cases u <;> simp [agreeEntries, SameEntries]
  | (k, v) :: t, u => by
    cases u with
    | nil => simp [agreeEntries, SameEntries]
    | cons e u => simp [agreeEntries, SameEntries, agree_iff v e.2, agreeEntries_iff t u, and_assoc]

end

instance (v w : Value) : Decidable (Same v w) := decidable_of_iff _ (agree_iff v w)

-- ---------------------------------------------------------------------------
-- Order of entries
-- ---------------------------------------------------------------------------

theorem lookup_perm {t u : Table} (h : t.Perm u) (hd : (t.map Prod.fst).Nodup) (key : String) :
    t.lookup key = u.lookup key := by
  induction h with
  | nil => rfl
  | cons e _ ih =>
    rw [List.map_cons, List.nodup_cons] at hd
    rw [List.lookup_cons, List.lookup_cons, ih hd.2]
  | swap e f t =>
    have hne : f.1 ≠ e.1 := by
      intro heq
      simp [heq] at hd
    obtain ⟨k, v⟩ := e
    obtain ⟨l, w⟩ := f
    simp only [List.lookup_cons]
    cases he : key == k with
    | false => rfl
    | true =>
      cases hf : key == l with
      | false => rfl
      | true => exact absurd ((eq_of_beq hf).symm.trans (eq_of_beq he)) hne
  | trans h₁ _ ih₁ ih₂ => rw [ih₁ hd, ih₂ ((h₁.map Prod.fst).nodup_iff.mp hd)]

end SimSetup.Toml
