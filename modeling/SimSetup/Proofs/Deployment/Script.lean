import SimSetup.Deployment
import SimSetup.Proofs.Actions
import SimSetup.Proofs.Template.Expansion

/-!
# Scripts on a disk

What a deployment makes of a template is told by the text of the template and the merged bindings.
Until a script is written the disk stays as it is.
-/

namespace SimSetup.Deployment

open Files (Cause Disk)
open Template (Bindings lex placeholders substitute)

-- ---------------------------------------------------------------------------
-- Reading
-- ---------------------------------------------------------------------------

theorem run_readText (path : String) (disk : Disk) :
    ((Files.readText path : ExceptT Cause (StateM Disk) String).run disk).2 = disk := by
  have hread : ∃ r, (Files.readFile path : ExceptT Cause (StateM Disk) ByteArray).run disk =
      (r, disk) := by
    simp only [Files.readFile, run_bind, run_get]
    cases Disk.read disk path with
    | ok content => exact ⟨.ok content, rfl⟩
    | error cause => exact ⟨.error cause, rfl⟩
  obtain ⟨r, hr⟩ := hread
  rw [Files.readText, run_bind, hr]
  cases r with
  | error cause => rfl
  | ok content => cases htext : String.fromUTF8? content <;> simp only [htext] <;> rfl

section
variable (d : Deployment) (template : String) (arguments : Bindings) (disk : Disk)

def source : Except Fault String :=
  ((d.load template : ExceptT Fault (StateM Disk) String).run disk).1

theorem run_load : (d.load template : ExceptT Fault (StateM Disk) String).run disk =
    (d.source template disk, disk) := by
  refine Prod.ext rfl ?_
  rw [load, run_adapt]
  exact run_readText _ disk

theorem run_unbound :
    (d.unbound template arguments : ExceptT Fault (StateM Disk) (List String)).run disk =
      ((d.source template disk).map (unboundIn · (d.merged arguments)), disk) := by
  rw [unbound, run_bind, run_load]
  cases d.source template disk <;> rfl

theorem run_render : (d.render template arguments : ExceptT Fault (StateM Disk) Script).run disk =
    ((d.source template disk).bind (scriptOf · (d.merged arguments)), disk) := by
  rw [render, run_bind, run_load]
  cases d.source template disk with
  | error fault => rfl
  | ok text =>
    simp only [Except.bind]
    cases scriptOf text (d.merged arguments) <;> rfl

end

-- ---------------------------------------------------------------------------
-- What is missing
-- ---------------------------------------------------------------------------

section
variable {text : String} {bindings : Bindings}

theorem unboundIn_eq_nil_iff :
    unboundIn text bindings = [] ↔ ∀ e ∈ lex text, e.1.Bound bindings := by
  simp only [unboundIn, List.filter_eq_nil_iff, Template.mem_placeholders, Template.Token.Bound]
  constructor
  · intro h e he key hkey
    simpa using h key ⟨e, he, hkey⟩
  · rintro h key ⟨e, he, hkey⟩
    simpa using h e he key hkey

/-- Filling needs what is listed as unbound to be bound, and every token to have a meaning. -/
theorem substitute_ok_iff_unboundIn : (∃ filled, substitute text bindings = .ok filled) ↔
    unboundIn text bindings = [] ∧ ∀ e ∈ lex text, e.1.isMeaningful = true := by
  rw [Template.substitute_ok_iff, unboundIn_eq_nil_iff]
  constructor
  · exact fun h => ⟨fun e he => (h e he).2, fun e he => (h e he).1⟩
  · exact fun ⟨hbound, hmeaning⟩ e he => ⟨hmeaning e he, hbound e he⟩

theorem head?_unboundIn (h : substitute text bindings = .error (.missingKey key span)) :
    (unboundIn text bindings).head? = some key := by
  obtain ⟨before, e, after, hlex, hbefore, hexpand⟩ := Template.substitute_error_iff.mp h
  obtain ⟨hkey, hnot⟩ := Template.expand_missing hexpand
  rw [unboundIn, List.head?_filter]
  refine Template.find?_placeholders hlex (fun x hx k hk => ?_) hkey
    (by simpa [← Std.ExtTreeMap.contains_iff_mem] using hnot)
  simpa using (hbefore x hx).2 k hk

theorem bound_before_invalid (h : substitute text bindings = .error (.invalidPlaceholder span p)) :
    ∃ before t after, lex text = before ++ (t, span) :: after ∧ t.isMeaningful = false ∧
      ∀ e ∈ before, e.1.Bound bindings := by
  obtain ⟨before, ⟨t, _⟩, after, hlex, hbefore, hexpand⟩ := Template.substitute_error_iff.mp h
  obtain ⟨hmeaning, rfl⟩ := Template.expand_invalid hexpand
  exact ⟨before, t, after, hlex, hmeaning, fun e he => (hbefore e he).2⟩

end

-- ---------------------------------------------------------------------------
-- The script
-- ---------------------------------------------------------------------------

section
variable {text : String} {bindings : Bindings}

theorem scriptOf_of_error (h : substitute text bindings = .error cause) :
    scriptOf text bindings = .error (.unfillable cause) := by
  rw [scriptOf, h]

theorem scriptOf_of_unnamed (h : substitute text bindings = .ok filled)
    (hname : nameKey ∉ bindings) : scriptOf text bindings = .error .unnamed := by
  rw [scriptOf, h]
  simp only [Std.ExtTreeMap.getElem?_eq_none hname]

theorem name_of_scriptOf (h : scriptOf text bindings = .ok script) :
    bindings[nameKey]? = some script.name := by
  unfold scriptOf at h
  split at h
  · cases h
  · split at h <;> cases h
    assumption

theorem scriptOf_ok_iff : (∃ script, scriptOf text bindings = .ok script) ↔
    (∃ filled, substitute text bindings = .ok filled) ∧ nameKey ∈ bindings := by
  cases hfilled : substitute text bindings with
  | error cause => simp [scriptOf_of_error hfilled]
  | ok filled =>
    by_cases hname : nameKey ∈ bindings
    · simp [scriptOf, hfilled, hname]
    · simp [scriptOf_of_unnamed hfilled hname, hname]

end

end SimSetup.Deployment
