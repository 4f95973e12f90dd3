import SimSetup.Command.Arguments

/-!
# Invocations

What a call of the program asks for: options for every task come first, then the name of the task
and what it needs.
-/

namespace SimSetup.Command

structure Filling where
  template : String
  settings : List (String × String)
  /-- Whether the environment of the process may be used. -/
  useEnvironment : Bool
  deriving DecidableEq, Repr

inductive Task
  /-- Writes the script, or prints it. -/
  | fill (filling : Filling) (dryRun : Bool)
  /-- Lists the placeholders without a value. -/
  | check (filling : Filling)
  /-- Describes the boundaries of a snapshot. -/
  | plane (snapshot : String)
  deriving DecidableEq, Repr

structure Invocation where
  config : Option String
  verbose : Bool
  task : Task
  deriving DecidableEq, Repr

def configSwitch : Switch := ⟨"config", some 'c', some .path, false⟩

def verboseSwitch : Switch := ⟨"verbose", some 'v', none, false⟩

def setSwitch : Switch := ⟨"set", some 's', some .setting, true⟩

def noEnvSwitch : Switch := ⟨"no-env", none, none, false⟩

def dryRunSwitch : Switch := ⟨"dry-run", none, none, false⟩

def taskItems (known : List Switch) (form : Form) (arguments : List String) :
    Except Stop (String × List Item) := do
  let found := items (helpSwitch :: known) arguments
  check (some form) [] found
  match words found with
  | word :: _ => return (word, found)
  | [] => .error (.misuse .wordMissing)

def Filling.of (template : String) (found : List Item) : Filling where
  template
  settings := (values setSwitch found).filterMap setting?
  useEnvironment := !given noEnvSwitch found

def commandNames : List String := ["fill", "check", "plane", "help"]

/-- Help is on the program or on one of its commands, which have none of their own. -/
def helpOn : List String → Stop
  | [] => .help
  | name :: rest =>
    if !commandNames.contains name then .misuse (.commandUnknown name)
    else match rest with
      | [] => .help
      | other :: _ => .misuse (.commandUnknown other)

def Task.read (name : String) (arguments : List String) : Except Stop Task :=
  match name with
  | "fill" => do
    let (template, found) ← taskItems [setSwitch, noEnvSwitch, dryRunSwitch] .any arguments
    return .fill (.of template found) (given dryRunSwitch found)
  | "check" => do
    let (template, found) ← taskItems [setSwitch, noEnvSwitch] .any arguments
    return .check (.of template found)
  | "plane" => do
    let (snapshot, _) ← taskItems [] .path arguments
    return .plane snapshot
  | "help" => .error (helpOn arguments)
  | _ => .error (.misuse (.commandUnknown name))

def Invocation.read (arguments : List String) : Except Stop Invocation := do
  let (found, rest) := options [helpSwitch, configSwitch, verboseSwitch] arguments
  check none [] found
  match rest with
  | [] => .error (.misuse .commandMissing)
  | name :: rest =>
    return ⟨(values configSwitch found).head?, given verboseSwitch found, ← Task.read name rest⟩

end SimSetup.Command
