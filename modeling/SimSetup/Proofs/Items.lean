import Mathlib.Data.List.Perm.Basic

/-!
# All items of a list

A list is mapped by a function that may have no result when each of its items is, and the results
follow the items in whatever order these are taken.
-/

namespace SimSetup

section
variable {α β : Type} {f : α → Option β} {l : List α} {bs : List β}

theorem mapM_eq_some_iff : l.mapM f = some bs ↔ List.Forall₂ (fun a b => f a = some b) l bs := by
  induction l generalizing bs with
  | nil => simp [eq_comm]
  | cons a l ih =>
    simp only [List.mapM_cons, bind, Option.bind_eq_some_iff, pure, Option.some.injEq, ih,
      List.forall₂_cons_left_iff]
    constructor
    · rintro ⟨b, hb, bs, hbs, rfl⟩
      exact ⟨b, bs, hb, hbs, rfl⟩
    · rintro ⟨b, bs, hb, hbs, rfl⟩
      exact ⟨b, hb, bs, hbs, rfl⟩

theorem mem_mapM_iff (h : l.mapM f = some bs) : b ∈ bs ↔ ∃ a ∈ l, f a = some b := by
  replace h := mapM_eq_some_iff.mp h
  induction h with
  | nil => simp
  | cons hab _ ih => simp [ih, hab, eq_comm]

theorem exists_forall₂_iff {R : α → β → Prop} :
    (∃ bs, List.Forall₂ R l bs) ↔ ∀ a ∈ l, ∃ b, R a b := by
  induction l with
  | nil => simp
  | cons a l ih =>
    rw [List.forall_mem_cons, ← ih]
    simp only [List.forall₂_cons_left_iff]
    constructor
    · rintro ⟨_, b, bs, hb, hbs, -⟩
      exact ⟨⟨b, hb⟩, bs, hbs⟩
    · rintro ⟨⟨b, hb⟩, bs, hbs⟩
      exact ⟨b :: bs, b, bs, hb, hbs, rfl⟩

theorem exists_mapM_iff : (∃ bs, l.mapM f = some bs) ↔ ∀ a ∈ l, ∃ b, f a = some b := by
  simp only [mapM_eq_some_iff, exists_forall₂_iff]

theorem mapM_perm (h : l.Perm l') (hr : l.mapM f = some bs) :
    ∃ bs', l'.mapM f = some bs' ∧ bs.Perm bs' := by
  obtain ⟨bs', hbs', hperm⟩ := List.perm_comp_forall₂ h.symm (mapM_eq_some_iff.mp hr)
  exact ⟨bs', mapM_eq_some_iff.mpr hbs', hperm.symm⟩

end

end SimSetup
