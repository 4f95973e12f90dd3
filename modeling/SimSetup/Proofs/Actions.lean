/-!
# Runs of actions that may fail

An action reads and changes a state and may stop with a fault; the state is then what the action had
made of it so far. Edits of a boundary are such actions, and so is what is done to files.
-/

namespace SimSetup

variable {ε ε' σ α β : Type}

theorem run_bind (x : ExceptT ε (StateM σ) α) (f : α → ExceptT ε (StateM σ) β) (s : σ) :
    (x >>= f).run s = match x.run s with
      | (.ok a, s') => (f a).run s'
      | (.error e, s') => (.error e, s') := by
  simp only [bind, ExceptT.bind, ExceptT.run, ExceptT.mk, StateT.bind, ExceptT.bindCont]
  cases x s with
  | mk r s' => cases r <;> rfl

@[simp] theorem run_pure (a : α) (s : σ) :
    (pure a : ExceptT ε (StateM σ) α).run s = (.ok a, s) := rfl

@[simp] theorem run_throw (e : ε) (s : σ) :
    (throw e : ExceptT ε (StateM σ) α).run s = (.error e, s) := rfl

@[simp] theorem run_get (s : σ) : (get : ExceptT ε (StateM σ) σ).run s = (.ok s, s) := rfl

@[simp] theorem run_modify (f : σ → σ) (s : σ) :
    (modify f : ExceptT ε (StateM σ) Unit).run s = (.ok (), f s) := rfl

theorem run_adapt (g : ε → ε') (x : ExceptT ε (StateM σ) α) (s : σ) :
    (x.adapt g).run s = ((x.run s).1.mapError g, (x.run s).2) := rfl

theorem run_map (g : α → β) (x : ExceptT ε (StateM σ) α) (s : σ) :
    (g <$> x).run s = ((x.run s).1.map g, (x.run s).2) := by
  rw [map_eq_pure_bind, run_bind]
  rcases x.run s with ⟨_ | _, _⟩ <;> rfl

section
variable {s s' : σ} {x : ExceptT ε (StateM σ) α}

theorem bind_cases {f : α → ExceptT ε (StateM σ) β} (h : (x >>= f).run s = (r, s')) :
    (∃ e, x.run s = (.error e, s') ∧ r = .error e) ∨
      ∃ a s₁, x.run s = (.ok a, s₁) ∧ (f a).run s₁ = (r, s') := by
  rw [run_bind] at h
  rcases hx : x.run s with ⟨e | a, s₁⟩ <;> rw [hx] at h
  · cases h
    exact .inl ⟨e, rfl, rfl⟩
  · exact .inr ⟨a, s₁, rfl, h⟩

theorem adapt_cases {g : ε → ε'} (h : (x.adapt g).run s = (r, s')) :
    (∃ e, x.run s = (.error e, s') ∧ r = .error (g e)) ∨ ∃ a, x.run s = (.ok a, s') ∧ r = .ok a := by
  rw [run_adapt] at h
  rcases hx : x.run s with ⟨e | a, s₁⟩ <;> rw [hx] at h <;> cases h
  · exact .inl ⟨e, rfl, rfl⟩
  · exact .inr ⟨a, rfl, rfl⟩

theorem error_of_bind {f : α → ExceptT ε (StateM σ) β} (h : (x >>= f).run s = (.error e, s')) :
    x.run s = (.error e, s') ∨ ∃ a s₁, x.run s = (.ok a, s₁) ∧ (f a).run s₁ = (.error e, s') := by
  obtain ⟨_, hx, ⟨⟩⟩ | hf := bind_cases h
  · exact .inl hx
  · exact .inr hf

theorem error_of_adapt {g : ε → ε'} (h : (x.adapt g).run s = (.error e, s')) :
    ∃ cause, x.run s = (.error cause, s') ∧ e = g cause := by
  obtain ⟨cause, hx, ⟨⟩⟩ | ⟨_, -, hok⟩ := adapt_cases h
  · exact ⟨cause, hx, rfl⟩
  · cases hok

end

/-- What comes after an action may look at how it went. -/
theorem run_after (x : ExceptT ε (StateM σ) α) (k : Except ε α → StateM σ β) (s : σ) :
    (x.run >>= k).run s = (k (x.run s).1).run (x.run s).2 := rfl

theorem bind_eq_ok {x : Except ε α} {f : α → Except ε β} {b : β} :
    x >>= f = .ok b ↔ ∃ a, x = .ok a ∧ f a = .ok b := by
  cases x <;> simp [bind, Except.bind]

theorem eq_ok_of_toOption {x : Except ε α} (h : x.toOption = some a) : x = .ok a := by
  cases x with
  | ok => cases h; rfl
  | error => cases h

def fault? : Except ε α → Option ε
  | .error e => some e
  | .ok _ => none

theorem eq_error_of_fault? {x : Except ε α} (h : fault? x = some e) : x = .error e := by
  cases x with
  | ok => cases h
  | error => cases h; rfl

end SimSetup
