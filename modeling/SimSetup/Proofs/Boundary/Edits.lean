import SimSetup.Boundary.Basic
import SimSetup.Proofs.Actions

/-!
# What an edit does

`Assigns` says what an assignment that is accepted does to a boundary. Everything else that
assignments and edits by path do follows from it: one that is refused changes nothing, and an edit
by path is an assignment to the attribute that its path names.
-/

namespace SimSetup.Boundary

/-- `Assigns b a v b'`: attribute `a` of `b` takes the value `v`, which makes it `b'`. -/
inductive Assigns (b : Boundary) : Attribute → Value → Boundary → Prop
  | unnamed : Assigns b .name .none { b with name := none }
  | named : Assigns b .name (.text s) { b with name := some s }
  | centre (h : v.vector? = some c) : Assigns b .centre v { b with centre := c }
  | normal (h : v.vector? = some n) : Assigns b .normal v { b with normal := n }
  | radius (h : v.number? = some r) : Assigns b .radius v { b with radius := r }
  | pressure (hk : b.kind.hasPressure = true) (hg : v.hasGap = false) :
    Assigns b .pressure v { b with pressure := some v.canonical }

/-- `Edits b path v a w`: to set `path` to `v` in `b` is to assign `w` to the attribute `a`. -/
inductive Edits (b : Boundary) : String → Value → Attribute → Value → Prop
  | whole (ha : a ∈ b.kind.attributes) : Edits b a.label v a v
  | component (axis : Axis) (hv : b.vector? a = some vec) (hx : v.number? = some x) :
    Edits b (a.label ++ "." ++ axis.label) v a (.vector (vec.set axis x))

-- ---------------------------------------------------------------------------
-- The monad of edits
-- ---------------------------------------------------------------------------

@[simp] theorem run_require_some (path : String) (expected : Shape) (a : α) (b : Boundary) :
    (require path expected (some a)).run b = (.ok a, b) := rfl

@[simp] theorem run_require_none (path : String) (expected : Shape) (b : Boundary) :
    (require path expected (none : Option α)).run b = (.error (.invalid path expected), b) := rfl

-- ---------------------------------------------------------------------------
-- Assignments
-- ---------------------------------------------------------------------------

theorem Assigns.run (h : Assigns b a v b') : (assign a v).run b = (.ok (), b') := by
  cases h with
  | unnamed | named => rfl
  | centre h | normal h | radius h => simp [assign, run_bind, h]
  | pressure hk hg => simp [assign, run_bind, hk, pressureOf, hg, assign.liftExcept]

theorem run_assign (a : Attribute) (v : Value) (b : Boundary) :
    (∃ b', (assign a v).run b = (.ok (), b') ∧ Assigns b a v b') ∨
      ∃ e, (assign a v).run b = (.error e, b) := by
  cases a with
  | name =>
    cases v with
    | none => exact .inl ⟨_, rfl, .unnamed⟩
    | text s => exact .inl ⟨_, rfl, .named⟩
    | number | vector | list => exact .inr ⟨_, rfl⟩
  | centre =>
    cases h : v.vector? with
    | some c => exact .inl ⟨_, (Assigns.centre h).run, .centre h⟩
    | none => exact .inr ⟨_, by simp [assign, run_bind, h]; rfl⟩
  | normal =>
    cases h : v.vector? with
    | some n => exact .inl ⟨_, (Assigns.normal h).run, .normal h⟩
    | none => exact .inr ⟨_, by simp [assign, run_bind, h]; rfl⟩
  | radius =>
    cases h : v.number? with
    | some r => exact .inl ⟨_, (Assigns.radius h).run, .radius h⟩
    | none => exact .inr ⟨_, by simp [assign, run_bind, h]; rfl⟩
  | pressure =>
    cases hk : b.kind.hasPressure with
    | false => exact .inr ⟨_, by simp [assign, run_bind, hk]; rfl⟩
    | true =>
      cases hg : v.hasGap with
      | false => exact .inl ⟨_, (Assigns.pressure hk hg).run, .pressure hk hg⟩
      | true =>
        exact .inr ⟨_, by simp [assign, run_bind, hk, pressureOf, hg, assign.liftExcept]; rfl⟩

theorem Assigns.kind (h : Assigns b a v b') : b'.kind = b.kind := by
  cases h <;> rfl

theorem Assigns.dependencies (h : Assigns b a v b') : b'.dependencies = b.dependencies := by
  cases h <;> rfl

-- ---------------------------------------------------------------------------
-- Paths
-- ---------------------------------------------------------------------------

theorem eq_of_splitPath_none {head : String} (h : splitPath path = (head, none)) : path = head := by
  obtain ⟨hname, hrest⟩ := Prod.mk.inj h
  split at hrest
  · rename_i hdrop
    rw [← hname, ← String.toList_inj, String.toList_ofList]
    have happ := List.takeWhile_append_dropWhile (p := (· ≠ '.')) (l := path.toList)
    rw [hdrop, List.append_nil] at happ
    exact happ.symm
  · cases hrest

theorem eq_of_splitPath_some {head rest : String} (h : splitPath path = (head, some rest)) :
    path = head ++ "." ++ rest := by
  obtain ⟨hname, hrest⟩ := Prod.mk.inj h
  split at hrest
  · cases hrest
  · rename_i c rest hdrop
    cases hrest
    -- what is dropped starts with the first character that is not kept, the dot
    have hdot : c = '.' := by
      have hhead := List.head?_dropWhile_not (· ≠ '.') path.toList
      rw [hdrop] at hhead
      simpa using hhead
    have happ := List.takeWhile_append_dropWhile (p := (· ≠ '.')) (l := path.toList)
    rw [hdrop, hdot] at happ
    rw [← hname, ← String.toList_inj]
    simpa using happ.symm

theorem Attribute.eq_of_ofLabel? (h : ofLabel? s = some a) : a.label = s := by
  simpa using List.find?_some h

theorem eq_of_axisOfLabel? (h : Axis.ofLabel? s = some axis) : axis.label = s := by
  simpa using List.find?_some h

-- ---------------------------------------------------------------------------
-- Edits by path
-- ---------------------------------------------------------------------------

theorem run_assignComponent (name component : String) (v : Value) (b : Boundary) :
    (∃ a w b', Edits b (name ++ "." ++ component) v a w ∧ Assigns b a w b' ∧
        (assignComponent name component v).run b = (.ok (), b')) ∨
      ∃ e, (assignComponent name component v).run b = (.error e, b) := by
  cases hv : (Attribute.ofLabel? name).bind fun a => (b.vector? a).map (a, ·) with
  | none => exact .inr ⟨_, by simp [assignComponent, run_bind, hv]; rfl⟩
  | some found =>
    obtain ⟨a, vec⟩ := found
    cases hx : v.number? with
    | none => exact .inr ⟨_, by simp [assignComponent, run_bind, hv, hx]; rfl⟩
    | some x =>
      cases haxis : Axis.ofLabel? component with
      | none => exact .inr ⟨_, by simp [assignComponent, run_bind, hv, hx, haxis]; rfl⟩
      | some axis =>
        have hrun : (assignComponent name component v).run b =
            (assign a (.vector (vec.set axis x))).run b := by
          simp [assignComponent, run_bind, hv, hx, haxis]
        rcases run_assign a (.vector (vec.set axis x)) b with ⟨b', hb', ha⟩ | ⟨e, he⟩
        · simp only [Option.bind_eq_some_iff, Option.map_eq_some_iff, Prod.mk.injEq] at hv
          obtain ⟨_, hname, _, hvec, rfl, rfl⟩ := hv
          rw [← Attribute.eq_of_ofLabel? hname, ← eq_of_axisOfLabel? haxis] at hrun ⊢
          exact .inl ⟨_, _, b', .component axis hvec hx, ha, hrun.trans hb'⟩
        · exact .inr ⟨e, hrun.trans he⟩

/-- An edit by path is the assignment that the path names, or nothing at all. -/
theorem run_set (path : String) (v : Value) (b : Boundary) :
    (∃ a w b', Edits b path v a w ∧ Assigns b a w b' ∧
        (set path v).run b = (.ok (b.dependencies.dependents path), b')) ∨
      ∃ e, (set path v).run b = (.error e, b) := by
  rcases hpath : splitPath path with ⟨name, _ | component⟩
  · cases hfind : b.kind.attributes.find? (·.label = name) with
    | none => exact .inr ⟨_, by simp [set, run_bind, hpath, hfind]; rfl⟩
    | some a =>
      have hname : a.label = path := by
        rw [eq_of_splitPath_none hpath]
        simpa using List.find?_some hfind
      rcases run_assign a v b with ⟨b', hb', ha⟩ | ⟨e, he⟩
      · refine .inl ⟨a, v, b', hname ▸ .whole (List.mem_of_find?_eq_some hfind), ha, ?_⟩
        rw [← ha.dependencies]
        simp [set, run_bind, hpath, hfind, hb']
        rfl
      · exact .inr ⟨e, by simp [set, run_bind, hpath, hfind, he]⟩
  · rcases run_assignComponent name component v b with ⟨a, w, b', he, ha, hb'⟩ | ⟨e, he⟩
    · refine .inl ⟨a, w, b', eq_of_splitPath_some hpath ▸ he, ha, ?_⟩
      rw [← ha.dependencies]
      simp [set, run_bind, hpath, hb']
      rfl
    · exact .inr ⟨e, by simp [set, run_bind, hpath, he]⟩

end SimSetup.Boundary
