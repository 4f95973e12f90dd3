import SimSetup.Command.Invocation
import SimSetup.Deployment
import SimSetup.Boundary.Description
import SimSetup.Snapshot.Store
import SimSetup.Template.Report

/-!
# Runs of the program

A run prints what was asked for and ends with code 0, or says what went wrong and ends with code 1;
a call that asks for nothing the program knows ends with code 2. Placeholders without a value are an
answer and a failure at once.
-/

namespace SimSetup.Command

open Files (MonadFiles)
open Project (Config)

structure Outcome where
  code : UInt8
  stdout : String
  stderr : String
  deriving DecidableEq, Repr

def Outcome.success (stdout : String) : Outcome := ⟨0, stdout, ""⟩

def Outcome.failure (reason : String) : Outcome := ⟨1, "", reason ++ "\n"⟩

def Misuse.message : Misuse → String
  | unknownOption text => "unknown option: " ++ text
  | valueMissing option => "the option " ++ option ++ " needs a value"
  | valueUnexpected option => "the option " ++ option ++ " takes no value"
  | repeated option => "the option " ++ option ++ " is given twice"
  | malformed text => "not a value that is possible here: " ++ text
  | wordUnexpected text => "unexpected argument: " ++ text
  | wordMissing => "an argument is missing"
  | commandMissing => "no command is given"
  | commandUnknown name => "unknown command: " ++ name

def usageLines : List String :=
  ["Usage: simsetup [-c FILE] [-v] COMMAND",
    "",
    "Commands:",
    "  fill TEMPLATE [-s KEY=VALUE]... [--no-env] [--dry-run]  write NAME.sh from a template",
    "  check TEMPLATE [-s KEY=VALUE]... [--no-env]             list placeholders without a value",
    "  plane SNAPSHOT                                          describe the planes of a setup"]

def usage : String := String.join (usageLines.map (· ++ "\n"))

def Stop.outcome : Stop → Outcome
  | help => .success usage
  | misuse cause => ⟨2, "", "error: " ++ cause.message ++ "\n\n" ++ usage⟩

/-- The call comes before the configuration. -/
def logLevel (i : Invocation) (config : Config) : String :=
  if i.verbose then "debug" else config.logLevel

def Filling.deployment (f : Filling) (config : Config) (environment : Environment) : Deployment :=
  .ofConfig (config.withInheritEnvironment f.useEnvironment) environment

def Filling.arguments (f : Filling) : Template.Bindings := .ofList f.settings

variable {m : Type → Type} [Monad m] [MonadFiles m]

def config (path : Option String) : ExceptT Outcome m Config :=
  match path with
  | none => return .default
  | some path => (Config.load path).adapt fun fault =>
    .failure ("Error loading config '" ++ path ++ "': " ++ fault.message)

/-- A fault in the text of a template is shown where it is. -/
def failed (d : Deployment) (template : String) (fault : Deployment.Fault) : m Outcome := do
  match fault.inTemplate?, ← (d.load template).run with
  | some cause, .ok text => return .failure (cause.report text (d.templatePath template))
  | _, _ => return .failure ("Error: " ++ fault.message)

def listUnbound (names : List String) : Outcome :=
  if names.isEmpty then .success "all placeholders bound\n"
  else ⟨1, String.join (names.map (· ++ "\n")), ""⟩

def perform (environment : Environment) (config : Config) : Task → m Outcome
  | .fill f dryRun => do
    let d := f.deployment config environment
    let printed : ExceptT Deployment.Fault m String :=
      if dryRun then Deployment.Script.text <$> d.render f.template f.arguments
      else (· ++ "\n") <$> d.fill f.template f.arguments
    match ← printed.run with
    | .ok text => return .success text
    | .error fault => failed d f.template fault
  | .check f => do
    let d := f.deployment config environment
    match ← (d.unbound f.template f.arguments).run with
    | .ok names => return listUnbound names
    | .error fault => failed d f.template fault
  | .plane path => do
    match ← (Snapshot.load path).run with
    | .ok boundaries => return .success (Boundary.describe boundaries)
    | .error fault =>
      return .failure ("Error loading snapshot '" ++ path ++ "': " ++ fault.message)

def run (environment : Environment) (arguments : List String) : m Outcome :=
  match Invocation.read arguments with
  | .error stop => return stop.outcome
  | .ok invocation => do
    match ← (config invocation.config).run with
    | .error outcome => return outcome
    | .ok config => perform environment config invocation.task

end SimSetup.Command
