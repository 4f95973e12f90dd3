import SimSetup.Proofs.Command.Agreement
import SimSetup.Proofs.Command.Lack

/-!
# What the environment can reach

Whether a run may use the environment is for the call alone to say: what the configuration says of it
is overruled. A run that may use it is the same in all environments only if it asks for no value that
the configuration and the call leave out.
-/

namespace SimSetup

open Deployment (nameKey scriptOf unboundIn)
open Files (Disk)
open Template (Bindings Extends)

-- ---------------------------------------------------------------------------
-- Bindings from the environment
-- ---------------------------------------------------------------------------

theorem fromUTF8?_toUTF8 (s : String) : String.fromUTF8? s.toUTF8 = some s := by
  rw [String.fromUTF8?, dif_pos (show s.toUTF8.IsValidUTF8 from s.isValidUTF8)]
  rfl

namespace Environment

def supplying (names : List String) : Environment :=
  names.map fun name => (name.toUTF8, "".toUTF8)

theorem bindings_supplying (names : List String) :
    (supplying names).bindings = .ofList (names.map fun name => (name, "")) := by
  rw [bindings, supplying, List.filterMap_map, ← List.filterMap_eq_map']
  congr 2
  funext name
  simp only [Function.comp_apply, fromUTF8?_toUTF8]
  rfl

theorem mem_bindings_supplying {names : List String} (h : name ∈ names) :
    name ∈ (supplying names).bindings := by
  rw [bindings_supplying, Std.ExtTreeMap.mem_ofList]
  simpa using h

end Environment

namespace Command

open Project (Config)

section
variable (config : Config) (f : Filling) (environment : Environment)

def Filling.ownBindings : Bindings := (f.deployment config []).merged f.arguments

theorem getElem?_merged (h : f.useEnvironment = true) (key : String) :
    ((f.deployment config environment).merged f.arguments)[key]? =
      (f.ownBindings config)[key]?.or environment.bindings[key]? := by
  have hempty : (Environment.bindings [])[key]? = none := rfl
  simp only [Filling.ownBindings, Filling.deployment, Deployment.merged, Deployment.ofConfig,
    Config.ambient, Config.withInheritEnvironment, h, if_true, Std.ExtTreeMap.getElem?_union,
    hempty, Option.or_none, Option.or_assoc]

theorem deployment_of_not (h : f.useEnvironment = false) :
    f.deployment config environment = f.deployment config [] := by
  simp [Filling.deployment, Deployment.ofConfig, Config.ambient, Config.withInheritEnvironment, h]

variable {config f environment}

theorem extends_merged (h : f.useEnvironment = true) :
    Extends ((f.deployment config environment).merged f.arguments) (f.ownBindings config) := by
  intro key value hvalue
  rw [getElem?_merged config f environment h, hvalue]
  rfl

theorem mem_merged_supplying (h : f.useEnvironment = true) (hkey : key ∈ names) :
    key ∈ (f.deployment config (.supplying names)).merged f.arguments := by
  rw [Std.ExtTreeMap.mem_iff_isSome_getElem?, getElem?_merged config f _ h, Option.isSome_or]
  simp [Environment.mem_bindings_supplying hkey]

end

-- ---------------------------------------------------------------------------
-- Runs that stay the same
-- ---------------------------------------------------------------------------

section
variable {config : Config} {f : Filling} {environment : Environment}

theorem scriptOf_isolated
    (h : f.useEnvironment = true → ¬ Deployment.Wants text (f.ownBindings config)) :
    scriptOf text ((f.deployment config environment).merged f.arguments) =
      scriptOf text (f.ownBindings config) := by
  cases huse : f.useEnvironment with
  | false => rw [deployment_of_not config f environment huse, Filling.ownBindings]
  | true => exact Deployment.scriptOf_extends (extends_merged huse) (h huse)

theorem unboundIn_isolated (h : f.useEnvironment = true → unboundIn text (f.ownBindings config) = []) :
    unboundIn text ((f.deployment config environment).merged f.arguments) =
      unboundIn text (f.ownBindings config) := by
  cases huse : f.useEnvironment with
  | false => rw [deployment_of_not config f environment huse, Filling.ownBindings]
  | true => rw [h huse, Deployment.unboundIn_extends (extends_merged huse) (h huse)]

end

section
variable {config : Config} {f : Filling} {disk : Disk} (environment : Environment)

theorem source_deployment (template : String) (disk : Disk) :
    (f.deployment config environment).source template disk =
      (f.deployment config []).source template disk := rfl

theorem failure_deployment (template : String) (disk : Disk) (fault : Deployment.Fault) :
    (f.deployment config environment).failure template disk fault =
      (f.deployment config []).failure template disk fault := rfl

theorem deliver_deployment (script : Deployment.Script) :
    (f.deployment config environment).deliver script = (f.deployment config []).deliver script :=
  rfl

theorem checked_isolated
    (h : ∀ text, (f.deployment config []).source f.template disk = .ok text →
      f.useEnvironment = true → unboundIn text (f.ownBindings config) = []) :
    f.checked (f.deployment config environment) disk = f.checked (f.deployment config []) disk := by
  unfold Filling.checked
  rw [source_deployment]
  cases hs : (f.deployment config []).source f.template disk with
  | error fault => exact failure_deployment ..
  | ok text => exact congrArg listUnbound (unboundIn_isolated (h text hs))

section
variable (h : ∀ text, (f.deployment config []).source f.template disk = .ok text →
  f.useEnvironment = true → ¬ Deployment.Wants text (f.ownBindings config))
include h

theorem script_isolated :
    ((f.deployment config environment).source f.template disk).bind
        (scriptOf · ((f.deployment config environment).merged f.arguments)) =
      ((f.deployment config []).source f.template disk).bind
        (scriptOf · ((f.deployment config []).merged f.arguments)) := by
  rw [source_deployment]
  cases hs : (f.deployment config []).source f.template disk with
  | error fault => rfl
  | ok text => exact scriptOf_isolated (h text hs)

theorem printed_isolated :
    f.printed (f.deployment config environment) disk = f.printed (f.deployment config []) disk := by
  unfold Filling.printed
  rw [script_isolated environment h]
  simp only [failure_deployment environment]

theorem written_isolated :
    f.written (f.deployment config environment) disk = f.written (f.deployment config []) disk := by
  unfold Filling.written
  rw [script_isolated environment h]
  simp only [failure_deployment environment, deliver_deployment environment]

end

end

def Task.filling? : Task → Option Filling
  | .fill f _ | .check f => some f
  | .plane _ => none

def Task.Wants (text : String) (bindings : Bindings) : Task → Prop
  | .fill .. => Deployment.Wants text bindings
  | .check _ => unboundIn text bindings ≠ []
  | .plane _ => False

/-- Where nothing more is wanted than the configuration and the call give, every environment is as
good as an empty one. -/
theorem perform_isolated {config : Config} {task : Task} {disk : Disk}
    (h : ∀ f, task.filling? = some f →
      ∀ text, (f.deployment config []).source f.template disk = .ok text →
        f.useEnvironment = true → ¬ task.Wants text (f.ownBindings config))
    (environment : Environment) :
    (perform environment config task : StateM Disk Outcome).run disk =
      (perform [] config task : StateM Disk Outcome).run disk := by
  cases task with
  | plane path => rfl
  | check f =>
    rw [run_check, run_check]
    exact congrArg (·, disk) (checked_isolated environment fun text hs huse =>
      Classical.not_not.mp (h f rfl text hs huse))
  | fill f dryRun =>
    cases dryRun with
    | true =>
      rw [run_dryRun, run_dryRun]
      exact congrArg (·, disk) (printed_isolated environment (h f rfl))
    | false =>
      rw [run_fill, run_fill]
      exact written_isolated environment (h f rfl)

-- ---------------------------------------------------------------------------
-- Runs that come out otherwise
-- ---------------------------------------------------------------------------

def Supplied (template : String) (outcome : Outcome) : Prop :=
  outcome.code = 0 ∨ ∃ d disk fault, Deployment.Told d template disk fault ∧ fault.isLack = false ∧
    outcome = Deployment.failure d template disk fault

theorem failure_not_supplied {d : Deployment} (h : d.Told template disk fault)
    (hlack : fault.isLack = true) : ¬ Supplied template (d.failure template disk fault) := by
  rintro (hcode | ⟨d', disk', other, h', hother, heq⟩)
  · rw [Deployment.failure_code] at hcode
    exact absurd hcode (by decide)
  · exact Deployment.failure_ne h h' hlack hother heq

section
variable {d : Deployment} {f : Filling} {disk : Disk} {text : String}
  (h : d.source f.template disk = .ok text)
include h

theorem not_supplied_of_wants (hwants : Deployment.Wants text (d.merged f.arguments)) :
    ¬ Supplied f.template (f.printed d disk) ∧ ¬ Supplied f.template (f.written d disk).1 := by
  obtain ⟨fault, hscript, hlack⟩ := Deployment.scriptOf_of_wants hwants
  unfold Filling.printed Filling.written
  rw [h]
  simp only [Except.bind, hscript]
  exact ⟨failure_not_supplied (.inr ⟨text, h⟩) hlack, failure_not_supplied (.inr ⟨text, h⟩) hlack⟩

theorem supplied_of_bound (hnone : unboundIn text (d.merged f.arguments) = [])
    (hname : nameKey ∈ d.merged f.arguments) :
    Supplied f.template (f.printed d disk) ∧ Supplied f.template (f.written d disk).1 := by
  unfold Filling.printed Filling.written
  rw [h]
  simp only [Except.bind]
  cases hscript : scriptOf text (d.merged f.arguments) with
  | error fault =>
    have hlack := Deployment.isLack_of_bound hnone hname hscript
    exact ⟨.inr ⟨d, disk, fault, .inr ⟨text, h⟩, hlack, rfl⟩,
      .inr ⟨d, disk, fault, .inr ⟨text, h⟩, hlack, rfl⟩⟩
  | ok script =>
    refine ⟨.inl rfl, ?_⟩
    simp only
    rcases hdeliver : (d.deliver script).run disk with ⟨fault | path, disk'⟩
    · obtain ⟨hplain, hlack⟩ := Deployment.isLack_of_deliver hdeliver
      exact .inr ⟨d, disk', fault, .inl hplain, hlack, rfl⟩
    · exact .inl rfl

end

/-- An environment that gives what is wanted makes the run come out otherwise. -/
theorem perform_exposed {config : Config} {task : Task} {f : Filling} {disk : Disk}
    (hfilling : task.filling? = some f) (huse : f.useEnvironment = true)
    (hs : (f.deployment config []).source f.template disk = .ok text)
    (hwants : task.Wants text (f.ownBindings config)) : ∃ environment,
      (perform environment config task : StateM Disk Outcome).run disk ≠
        (perform [] config task : StateM Disk Outcome).run disk := by
  let environment := Environment.supplying (nameKey :: Template.placeholders text)
  have hs' : (f.deployment config environment).source f.template disk = .ok text := hs
  have hnone : unboundIn text ((f.deployment config environment).merged f.arguments) = [] := by
    simp only [unboundIn, List.filter_eq_nil_iff]
    intro key hkey
    simpa using mem_merged_supplying huse (List.mem_cons_of_mem nameKey hkey)
  have hname : nameKey ∈ (f.deployment config environment).merged f.arguments :=
    mem_merged_supplying huse List.mem_cons_self
  refine ⟨environment, fun heq => ?_⟩
  cases task with
  | plane => cases hfilling
  | check g =>
    cases hfilling
    rw [run_check, run_check] at heq
    have hsuccess := (checked_eq_success hs').mpr hnone
    rw [(Prod.mk.inj heq).1] at hsuccess
    exact hwants ((checked_eq_success hs).mp hsuccess)
  | fill g dryRun =>
    cases hfilling
    obtain ⟨hprinted, hwritten⟩ := supplied_of_bound hs' hnone hname
    obtain ⟨hnprinted, hnwritten⟩ := not_supplied_of_wants hs hwants
    cases dryRun with
    | true =>
      rw [run_dryRun, run_dryRun] at heq
      rw [(Prod.mk.inj heq).1] at hprinted
      exact hnprinted hprinted
    | false =>
      rw [run_fill, run_fill] at heq
      rw [heq] at hwritten
      exact hnwritten hwritten

-- ---------------------------------------------------------------------------
-- Calls
-- ---------------------------------------------------------------------------

/-- A call that asks for a value that the configuration and the call leave out, and may look for it
in the environment. -/
inductive Exposed (arguments : List String) (disk : Disk) : Prop
  | intro {invocation : Invocation} {config : Config} {f : Filling}
    (hread : Invocation.read arguments = .ok invocation)
    (hconfig : configOn invocation.config disk = .ok config)
    (hfilling : invocation.task.filling? = some f)
    (huse : f.useEnvironment = true)
    (hsource : (f.deployment config []).source f.template disk = .ok text)
    (hwants : invocation.task.Wants text (f.ownBindings config))

/-- Only a call that is exposed runs otherwise in another environment. Whether the configuration lets
the environment in does not come into it. -/
theorem run_isolated_iff (arguments : List String) (disk : Disk) :
    (∀ environment environment' : Environment,
      (run environment arguments : StateM Disk Outcome).run disk =
        (run environment' arguments : StateM Disk Outcome).run disk) ↔
      ¬ Exposed arguments disk := by
  constructor
  · rintro h ⟨hread, hconfig, hfilling, huse, hsource, hwants⟩
    obtain ⟨environment, hne⟩ := perform_exposed hfilling huse hsource hwants
    have heq := h environment []
    rw [run_run, run_run, hread] at heq
    simp only [hconfig] at heq
    exact hne heq
  · intro hnot environment environment'
    rw [run_run, run_run]
    cases hread : Invocation.read arguments with
    | error stop => rfl
    | ok invocation =>
      simp only
      cases hconfig : configOn invocation.config disk with
      | error outcome => rfl
      | ok config =>
        have hisolated := @perform_isolated config invocation.task disk
          fun f hfilling text hsource huse hwants =>
            hnot ⟨hread, hconfig, hfilling, huse, hsource, hwants⟩
        exact (hisolated environment).trans (hisolated environment').symm

/-- What the configuration says of the environment is overruled. -/
theorem perform_withInheritEnvironment (environment : Environment) (config : Config) (inherit : Bool)
    (task : Task) :
    (perform environment (config.withInheritEnvironment inherit) task : StateM Disk Outcome) =
      perform environment config task := by
  cases task <;> rfl

/-- A configuration that keeps the environment out does not isolate a check from it. -/
theorem run_not_isolated : ¬ ∀ (disk : Disk) (arguments : List String) (path : String)
    (verbose : Bool) (task : Task) (f : Filling) (config : Config),
    Invocation.read arguments = .ok ⟨some path, verbose, task⟩ → task.filling? = some f →
    configOn (some path) disk = .ok config → config.inheritEnvironment = false →
    ∀ environment environment' : Environment,
      (run environment arguments : StateM Disk Outcome).run disk =
        (run environment' arguments : StateM Disk Outcome).run disk := by
  intro h
  let disk : Disk := ⟨.ofList [
    (["c.toml"], Files.Entry.file "[deploy]\ninherit_environment = false\n".toUTF8),
    (["deploy"], Files.Entry.directory), (["deploy", "templates"], Files.Entry.directory),
    (["deploy", "templates", "t"], Files.Entry.file "$who".toUTF8)], []⟩
  let f : Filling := ⟨"t", [], true⟩
  have hread : Invocation.read ["-c", "c.toml", "check", "t"] =
      .ok ⟨some "c.toml", false, .check f⟩ := eq_ok_of_toOption (by decide +kernel)
  have hsetting : (configOn (some "c.toml") disk).toOption.map (·.inheritEnvironment) =
      some false := by decide +kernel
  obtain ⟨config, hconfig, hinherit⟩ := Option.map_eq_some_iff.mp hsetting
  have hrun := h disk _ _ _ _ f config hread rfl (eq_ok_of_toOption hconfig) hinherit
    [("who".toUTF8, "x".toUTF8)] []
  have hcode : ((run [("who".toUTF8, "x".toUTF8)] ["-c", "c.toml", "check", "t"] :
      StateM Disk Outcome).run disk).1.code = 0 := by decide +kernel
  have hcode' : ((run [] ["-c", "c.toml", "check", "t"] :
      StateM Disk Outcome).run disk).1.code = 1 := by decide +kernel
  rw [hrun, hcode'] at hcode
  exact absurd hcode (by decide)

end Command

end SimSetup
