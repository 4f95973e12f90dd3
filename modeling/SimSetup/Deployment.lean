import SimSetup.Project.Config
import SimSetup.Template.Substitution

/-!
# Job scripts from templates

A deployment reads templates from one directory and writes scripts to another. Bindings given with a
call come before the ambient ones. The binding of `name` names the script.
-/

namespace SimSetup

open Template (Bindings)
open Files (MonadFiles)

structure Deployment where
  templatesDir : String
  outputDir : String
  ambient : Bindings

namespace Deployment

structure Script where
  name : String
  text : String
  deriving DecidableEq, Repr

inductive Fault
  | notFound (path : String)
  | unfillable (cause : Template.Fault)
  /-- No binding names the script. -/
  | unnamed
  | inaccessible (path : String) (cause : Files.Cause)
  deriving DecidableEq, Repr

def Fault.message : Fault → String
  | notFound path => "template not found: " ++ path
  | unfillable cause => cause.message
  | unnamed => "no 'name' binding to derive the output file name from"
  | inaccessible path cause => "I/O error on " ++ path ++ ": " ++ cause.message

def Fault.inTemplate? : Fault → Option Template.Fault
  | unfillable cause => some cause
  | _ => none

def nameKey : String := "name"

def scriptExtension : String := "sh"

def ofConfig (config : Project.Config) (environment : Environment) : Deployment :=
  ⟨config.templatesPath, config.outputPath, config.ambient environment⟩

def withAmbient (d : Deployment) (ambient : Bindings) : Deployment := { d with ambient }

def withAmbientValue (d : Deployment) (key value : String) : Deployment :=
  { d with ambient := d.ambient.insert key value }

def templatePath (d : Deployment) (template : String) : String := Files.join d.templatesDir template

def scriptPath (d : Deployment) (name : String) : String :=
  Files.join d.outputDir (name ++ "." ++ scriptExtension)

def merged (d : Deployment) (arguments : Bindings) : Bindings := d.ambient ∪ arguments

/-- The script that a template's text becomes. The text is filled before the name is looked for. -/
def scriptOf (text : String) (bindings : Bindings) : Except Fault Script :=
  match Template.substitute text bindings with
  | .error cause => .error (.unfillable cause)
  | .ok filled =>
    match bindings[nameKey]? with
    | some name => .ok ⟨name, filled⟩
    | none => .error .unnamed

def unboundIn (text : String) (bindings : Bindings) : List String :=
  (Template.placeholders text).filter (!bindings.contains ·)

variable {m : Type → Type} [Monad m] [MonadFiles m]

def load (d : Deployment) (template : String) : ExceptT Fault m String :=
  let path := d.templatePath template
  (Files.readText path).adapt fun
    | .missing => .notFound path
    | cause => .inaccessible path cause

def unbound (d : Deployment) (template : String) (arguments : Bindings) :
    ExceptT Fault m (List String) := do
  return unboundIn (← d.load template) (d.merged arguments)

def render (d : Deployment) (template : String) (arguments : Bindings) :
    ExceptT Fault m Script := do
  match scriptOf (← d.load template) (d.merged arguments) with
  | .ok script => return script
  | .error fault => throw fault

/-- Writes the script, in a directory that is made if it is missing, and gives its path. -/
def fill (d : Deployment) (template : String) (arguments : Bindings) :
    ExceptT Fault m String := do
  let script ← d.render template arguments
  let path := d.scriptPath script.name
  (Files.createDirectories d.outputDir).adapt (.inaccessible d.outputDir)
  (Files.writeFile path script.text.toUTF8).adapt (.inaccessible path)
  return path

end Deployment

end SimSetup
