import SimSetup.Command.Run
import SimSetup.Proofs.Deployment.Script

/-!
# Runs on a disk

What a run prints is told by the configuration it finds and the text of the template; a run that
does not write a script leaves the disk as it is.
-/

namespace SimSetup

open Files (Disk)
open Template (Bindings)

namespace Deployment

/-- What is said of a fault: the place in the template, if it is a fault of the template's text. -/
def failure (d : Deployment) (template : String) (disk : Disk) (fault : Fault) :
    Command.Outcome :=
  match fault.inTemplate?, d.source template disk with
  | some cause, .ok text => .failure (cause.report text (d.templatePath template))
  | _, _ => .failure ("Error: " ++ fault.message)

def deliver (d : Deployment) (script : Script) : ExceptT Fault (StateM Disk) String := do
  let path := d.scriptPath script.name
  (Files.createDirectories d.outputDir).adapt (.inaccessible d.outputDir)
  (Files.writeFile path script.text.toUTF8).adapt (.inaccessible path)
  return path

theorem fill_eq (d : Deployment) (template : String) (arguments : Bindings) :
    d.fill template arguments = d.render template arguments >>= d.deliver := rfl

theorem failure_of_plain {fault : Fault} (h : fault.inTemplate? = none) (d : Deployment)
    (template : String) (disk : Disk) :
    d.failure template disk fault = .failure ("Error: " ++ fault.message) := by
  unfold failure
  rw [h]

theorem failure_of_text {d : Deployment} (h : d.source template disk = .ok text)
    (cause : Template.Fault) : d.failure template disk (.unfillable cause) =
      .failure (cause.report text (d.templatePath template)) := by
  unfold failure
  rw [h]
  rfl

theorem failure_code (d : Deployment) (template : String) (disk : Disk) (fault : Fault) :
    (d.failure template disk fault).code = 1 := by
  unfold failure
  split <;> rfl

end Deployment

namespace Command

open Project (Config)

/-- The configuration that a call finds on a disk, or how the run ends without one. -/
def configOn (path : Option String) (disk : Disk) : Except Outcome Config :=
  ((config path : ExceptT Outcome (StateM Disk) Config).run disk).1

theorem run_config (path : Option String) (disk : Disk) :
    (config path : ExceptT Outcome (StateM Disk) Config).run disk = (configOn path disk, disk) := by
  refine Prod.ext rfl ?_
  cases path with
  | none => rfl
  | some path =>
    rw [config, run_adapt, Config.load, run_bind, run_adapt]
    have hdisk := Deployment.run_readText path disk
    cases ((Files.readText path : ExceptT Files.Cause (StateM Disk) String).run disk).1 with
    | error cause => exact hdisk
    | ok text =>
      have hok : (Except.ok text).mapError Config.Fault.unreadable = .ok text := rfl
      simp only [hok]
      cases Config.read text <;> exact hdisk

theorem run_failed (d : Deployment) (template : String) (fault : Deployment.Fault) (disk : Disk) :
    (failed d template fault : StateM Disk Outcome).run disk =
      (d.failure template disk fault, disk) := by
  rw [failed, run_after, d.run_load template disk, Deployment.failure]
  cases fault.inTemplate? <;> cases d.source template disk <;> rfl

section
variable (d : Deployment) (f : Filling) (disk : Disk)

def Filling.checked : Outcome :=
  match d.source f.template disk with
  | .ok text => listUnbound (Deployment.unboundIn text (d.merged f.arguments))
  | .error fault => d.failure f.template disk fault

def Filling.printed : Outcome :=
  match (d.source f.template disk).bind (Deployment.scriptOf · (d.merged f.arguments)) with
  | .ok script => .success script.text
  | .error fault => d.failure f.template disk fault

def Filling.written : Outcome × Disk :=
  match (d.source f.template disk).bind (Deployment.scriptOf · (d.merged f.arguments)) with
  | .error fault => (d.failure f.template disk fault, disk)
  | .ok script => match (d.deliver script).run disk with
    | (.ok path, disk') => (.success (path ++ "\n"), disk')
    | (.error fault, disk') => (d.failure f.template disk' fault, disk')

end

section
variable (environment : Environment) (config : Config) (f : Filling) (disk : Disk)

theorem run_check : (perform environment config (.check f) : StateM Disk Outcome).run disk =
    (f.checked (f.deployment config environment) disk, disk) := by
  rw [perform, run_after, Deployment.run_unbound]
  unfold Filling.checked
  cases (f.deployment config environment).source f.template disk with
  | ok text => rfl
  | error fault => exact run_failed _ _ fault disk

theorem run_dryRun : (perform environment config (.fill f true) : StateM Disk Outcome).run disk =
    (f.printed (f.deployment config environment) disk, disk) := by
  rw [perform, run_after, if_pos rfl, run_map, Deployment.run_render]
  unfold Filling.printed
  cases ((f.deployment config environment).source f.template disk).bind _ with
  | ok script => rfl
  | error fault => exact run_failed _ _ fault disk

theorem run_fill : (perform environment config (.fill f false) : StateM Disk Outcome).run disk =
    f.written (f.deployment config environment) disk := by
  rw [perform, run_after, if_neg Bool.false_ne_true, run_map, Deployment.fill_eq, run_bind,
    Deployment.run_render]
  unfold Filling.written
  cases ((f.deployment config environment).source f.template disk).bind _ with
  | error fault => exact run_failed _ _ fault disk
  | ok script =>
    simp only
    rcases ((f.deployment config environment).deliver script).run disk with ⟨_ | path, disk'⟩
    · exact run_failed _ _ _ disk'
    · rfl

end

theorem run_run (environment : Environment) (arguments : List String) (disk : Disk) :
    (run environment arguments : StateM Disk Outcome).run disk =
      match Invocation.read arguments with
      | .error stop => (stop.outcome, disk)
      | .ok invocation => match configOn invocation.config disk with
        | .error outcome => (outcome, disk)
        | .ok config =>
          (perform environment config invocation.task : StateM Disk Outcome).run disk := by
  unfold run
  cases Invocation.read arguments with
  | error stop => rfl
  | ok invocation =>
    simp only [run_after, run_config]
    cases configOn invocation.config disk <;> rfl

end Command

end SimSetup
