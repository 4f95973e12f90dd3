import SimSetup.Proofs.Command.Run

/-!
# Checking and filling agree

A check lists the placeholders without a value; filling stops where a value is missing. With the
same bindings they agree but for two gaps: a check does not look for dollar signs without a meaning,
nor for the name of the script.
-/

namespace SimSetup.Command

open Deployment (nameKey scriptOf unboundIn)
open Files (Disk)
open Template (Bindings lex substitute)

structure Agreement (text : String) (bindings : Bindings) (unbound : List String) : Prop where
  fills : (∃ filled, substitute text bindings = .ok filled) ↔
    unbound = [] ∧ ∀ e ∈ lex text, e.1.isMeaningful = true
  missing : ∀ key span, substitute text bindings = .error (.missingKey key span) →
    unbound.head? = some key
  /-- Every placeholder before a dollar sign without a meaning has a value. -/
  invalid : ∀ span position, substitute text bindings = .error (.invalidPlaceholder span position) →
    ∃ before t after, lex text = before ++ (t, span) :: after ∧ t.isMeaningful = false ∧
      ∀ e ∈ before, ∀ key, e.1.key? = some key → key ∈ bindings

structure Rendering (bindings : Bindings) (filling : Except Template.Fault String)
    (rendering : Except Deployment.Fault Deployment.Script) : Prop where
  renders : (∃ script, rendering = .ok script) ↔ (∃ filled, filling = .ok filled) ∧ nameKey ∈ bindings
  unfillable : ∀ cause, filling = .error cause → rendering = .error (.unfillable cause)
  unnamed : ∀ filled, filling = .ok filled → nameKey ∉ bindings → rendering = .error .unnamed

/-- One call checks a template and the other fills it in a dry run, with the same options. -/
inductive SameOptions (environment : Environment) (disk : Disk) :
    Deployment → String → Bindings → (checking filling : List String) → Prop
  | intro {f : Filling} {project : Project.Config}
    (hchecking : Invocation.read checking = .ok ⟨path, verbose, .check f⟩)
    (hfilling : Invocation.read filling = .ok ⟨path, verbose', .fill f true⟩)
    (hproject : configOn path disk = .ok project) :
    SameOptions environment disk (f.deployment project environment) f.template f.arguments checking
      filling

theorem agreement (text : String) (bindings : Bindings) :
    Agreement text bindings (unboundIn text bindings) where
  fills := Deployment.substitute_ok_iff_unboundIn
  missing _ _ := Deployment.head?_unboundIn
  invalid _ _ := Deployment.bound_before_invalid

theorem rendering_scriptOf (text : String) (bindings : Bindings) :
    Rendering bindings (substitute text bindings) (scriptOf text bindings) where
  renders := Deployment.scriptOf_ok_iff
  unfillable _ := Deployment.scriptOf_of_error
  unnamed _ := Deployment.scriptOf_of_unnamed

theorem listUnbound_eq_success {names : List String} :
    listUnbound names = .success "all placeholders bound\n" ↔ names = [] := by
  cases names with
  | nil => exact ⟨fun _ => rfl, fun _ => rfl⟩
  | cons name names =>
    refine ⟨fun h => ?_, fun h => nomatch h⟩
    have hcode := congrArg Outcome.code h
    exact absurd hcode (by decide : (1 : UInt8) ≠ 0)

section
variable {d : Deployment} {f : Filling} {disk : Disk} {text : String}
  (h : d.source f.template disk = .ok text)
include h

theorem checked_eq_success : f.checked d disk = .success "all placeholders bound\n" ↔
    unboundIn text (d.merged f.arguments) = [] := by
  rw [← listUnbound_eq_success]
  unfold Filling.checked
  rw [h]

theorem printed_code_ne_zero : (f.printed d disk).code ≠ 0 ↔
    ¬ ∃ script, scriptOf text (d.merged f.arguments) = .ok script := by
  unfold Filling.printed
  rw [h]
  simp only [Except.bind]
  cases scriptOf text (d.merged f.arguments) with
  | ok script => exact ⟨fun hcode => absurd rfl hcode, fun hnot => absurd ⟨script, rfl⟩ hnot⟩
  | error fault =>
    simp only [Deployment.failure_code]
    exact ⟨fun _ ⟨_, h⟩ => (nomatch h), fun _ => by decide⟩

end

/-- A check and a fill of one template agree but for dollar signs without a meaning and the name of
the script, and so do the two commands. -/
theorem check_fill_agree {d : Deployment} {template text : String} {disk : Disk}
    (h : d.source template disk = .ok text) (arguments : Bindings) :
    ∃ unbound,
      (d.unbound template arguments : ExceptT _ (StateM Disk) _).run disk = (.ok unbound, disk) ∧
      Agreement text (d.merged arguments) unbound ∧
      Rendering (d.merged arguments) (substitute text (d.merged arguments))
        ((d.render template arguments : ExceptT _ (StateM Disk) _).run disk).1 ∧
      ∀ environment checking filling,
        SameOptions environment disk d template arguments checking filling →
        (((run environment checking : StateM Disk _).run disk).1 =
            .success "all placeholders bound\n" ↔ unbound = []) ∧
          (unbound = [] → (((run environment filling : StateM Disk _).run disk).1.code ≠ 0 ↔
            (∃ e ∈ lex text, e.1.isMeaningful = false) ∨ nameKey ∉ d.merged arguments)) := by
  refine ⟨unboundIn text (d.merged arguments), ?_, agreement _ _, ?_, ?_⟩
  · rw [d.run_unbound, h]
    rfl
  · rw [d.run_render, h]
    exact rendering_scriptOf _ _
  · rintro environment checking filling ⟨hchecking, hfilling, hproject⟩
    rw [run_run, run_run, hchecking, hfilling]
    simp only [hproject, run_check, run_dryRun]
    refine ⟨checked_eq_success h, fun hbound => ?_⟩
    have hmeaning : (¬ ∀ e ∈ lex text, e.1.isMeaningful = true) ↔
        ∃ e ∈ lex text, e.1.isMeaningful = false := by
      simp
    rw [printed_code_ne_zero h, Deployment.scriptOf_ok_iff, Deployment.substitute_ok_iff_unboundIn,
      hbound, Classical.not_and_iff_not_or_not, ← hmeaning, and_iff_right rfl]

theorem check_fill_agree_stray : ∃ disk : Disk,
    ((run [] ["check", "job", "-s", "who=x", "-s", "name=n"] : StateM Disk _).run disk).1 =
        .success "all placeholders bound\n" ∧
      ((run [] ["fill", "job", "--dry-run", "-s", "who=x", "-s", "name=n"] : StateM Disk _).run
        disk).1.code ≠ 0 := by
  let disk : Disk := ⟨.ofList [(["deploy"], Files.Entry.directory),
    (["deploy", "templates"], Files.Entry.directory),
    (["deploy", "templates", "job"], Files.Entry.file "$who costs 5$".toUTF8)], []⟩
  let f : Filling := ⟨"job", [("who", "x"), ("name", "n")], true⟩
  let d := f.deployment .default []
  have hsource : d.source "job" disk = .ok "$who costs 5$" :=
    eq_ok_of_toOption (by decide +kernel)
  have hchecking : Invocation.read ["check", "job", "-s", "who=x", "-s", "name=n"] =
      .ok ⟨none, false, .check f⟩ := eq_ok_of_toOption (by decide +kernel)
  have hfilling : Invocation.read ["fill", "job", "--dry-run", "-s", "who=x", "-s", "name=n"] =
      .ok ⟨none, false, .fill f true⟩ := eq_ok_of_toOption (by decide +kernel)
  obtain ⟨unbound, hunbound, -, -, hcommands⟩ := check_fill_agree hsource f.arguments
  obtain ⟨hcheck, hfill⟩ := hcommands [] _ _ (.intro hchecking hfilling rfl)
  have hnone : unbound = [] := by
    have hall : unboundIn "$who costs 5$" (d.merged f.arguments) = [] := by decide +kernel
    rw [d.run_unbound, hsource, Except.map, hall] at hunbound
    cases hunbound
    rfl
  have hstray : (lex "$who costs 5$").any (fun e => !e.1.isMeaningful) = true := by
    decide +kernel
  exact ⟨disk, hcheck.mpr hnone, (hfill hnone).mpr (.inl (by simpa using hstray))⟩

end SimSetup.Command
