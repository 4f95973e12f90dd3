import SimSetup.Files.Disk
import SimSetup.Project.Environment
import SimSetup.Project.Settings
import SimSetup.Toml.Document
import SimSetup.Toml.Writer

/-!
# Project configuration

Where templates are read from and scripts written to, values that every template may use, and how
much is logged. A value that is no text is written the way a document writes it.
-/

namespace SimSetup.Project

open Template (Bindings)

structure Config where
  /-- What the two directories are taken from. -/
  localRoot : String
  templatesDir : String
  outputDir : String
  /-- Whether the environment of the process may be used as well. -/
  inheritEnvironment : Bool
  env : Std.ExtTreeMap String Toml.Value
  logLevel : String

namespace Config

def default : Config where
  localRoot := "."
  templatesDir := "deploy/templates"
  outputDir := "deploy/.jobscripts"
  inheritEnvironment := true
  env := ∅
  logLevel := "info"

inductive Fault
  | unreadable (cause : Files.Cause)
  /-- The text is no document, or not one of settings. -/
  | malformed
  deriving DecidableEq, Repr

def Fault.message : Fault → String
  | unreadable cause => "Failed to read config file: " ++ cause.message
  | malformed => "Failed to parse config TOML: " ++ Toml.parseError

def group (t : Toml.Table) (name : String) : Option Group :=
  match t.lookup name with
  | none => some (.named [])
  | some v => Group.ofValue? v

def decodeEnv (t : Toml.Table) : Option (Std.ExtTreeMap String Toml.Value) := do
  match ← group t "env" with
  | .named entries => return .ofList (← settledEntries entries)
  | .listed _ => none

def decode (t : Toml.Table) : Option Config := do
  let deploy ← group t "deploy"
  let logging ← group t "logging"
  return {
    localRoot := ← deploy.setting "local_root" 0 text? default.localRoot
    templatesDir := ← deploy.setting "templates_dir" 1 text? default.templatesDir
    outputDir := ← deploy.setting "output_dir" 2 text? default.outputDir
    inheritEnvironment :=
      ← deploy.setting "inherit_environment" 3 flag? default.inheritEnvironment
    env := ← decodeEnv t
    logLevel := ← logging.setting "level" 0 text? default.logLevel }

def read (text : String) : Except Fault Config :=
  match (Toml.read text).bind decode with
  | some config => .ok config
  | none => .error .malformed

def load [Monad m] [Files.MonadFiles m] (path : String) : ExceptT Fault m Config := do
  let text ← (Files.readText path).adapt .unreadable
  match read text with
  | .ok config => return config
  | .error fault => throw fault

def templatesPath (c : Config) : String := Files.join c.localRoot c.templatesDir

def outputPath (c : Config) : String := Files.join c.localRoot c.outputDir

def withInheritEnvironment (c : Config) (inherit : Bool) : Config :=
  { c with inheritEnvironment := inherit }

/-- A date or time that is not part of another value is written as its stand-in. -/
def bindingText : Toml.Value → String
  | .string s => s
  | .datetime d => .ofList (Toml.writeValue (.table [(dateKey, .string d.text)]))
  | v => .ofList (Toml.writeValue v)

def envBindings (c : Config) : Bindings := c.env.map fun _ v => bindingText v

/-- What every template may use: the configured values, and below them the environment. -/
def ambient (c : Config) (environment : Environment) : Bindings :=
  if c.inheritEnvironment then environment.bindings ∪ c.envBindings else c.envBindings

end Config

end SimSetup.Project
