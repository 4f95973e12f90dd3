import Std.Data.ExtTreeMap
import SimSetup.Files.Path

/-!
# Files and directories

What a program does to files it does through `MonadFiles`. `Disk` is a tree of files and directories
without links; `Disk.Action` reads and changes one the way a file system does, and what was done
before an action failed stays done.
-/

namespace SimSetup.Files

inductive Cause
  | missing
  | notDirectory
  | isDirectory
  | nameTooLong
  | alreadyThere
  | notText
  | nulInName
  | other (reason : String)
  deriving DecidableEq, Repr

def Cause.message : Cause → String
  | missing => "No such file or directory (os error 2)"
  | notDirectory => "Not a directory (os error 20)"
  | isDirectory => "Is a directory (os error 21)"
  | nameTooLong => "File name too long (os error 36)"
  | alreadyThere => "File exists (os error 17)"
  | notText => "stream did not contain valid UTF-8"
  | nulInName => "file name contained an unexpected NUL byte"
  | other reason => reason

class MonadFiles (m : Type → Type) where
  readFile (path : String) : ExceptT Cause m ByteArray
  /-- Replaces what the file held. -/
  writeFile (path : String) (content : ByteArray) : ExceptT Cause m Unit
  /-- Makes the directory and those it lies in, unless they are there. -/
  createDirectories (path : String) : ExceptT Cause m Unit

export MonadFiles (readFile writeFile createDirectories)

def readText [Monad m] [MonadFiles m] (path : String) : ExceptT Cause m String := do
  match String.fromUTF8? (← readFile path) with
  | some text => return text
  | none => throw .notText

inductive Entry
  | directory
  | file (content : ByteArray)

/-- Names from the root down. -/
abbrev Place := List String

structure Disk where
  entries : Std.ExtTreeMap Place Entry
  workingDirectory : Place

namespace Disk

def entry? (d : Disk) (place : Place) : Option Entry :=
  if place = [] then some .directory else d.entries[place]?

def hasDirectory (d : Disk) (place : Place) : Bool := d.entry? place matches some .directory

def put (d : Disk) (place : Place) (entry : Entry) : Disk :=
  { d with entries := d.entries.insert place entry }

/-- In bytes. -/
def nameLimit : Nat := 255

def pathLimit : Nat := 4095

def checkName (name : String) : Except Cause Unit :=
  if nameLimit < name.utf8ByteSize then .error .nameTooLong else .ok ()

def checkPath (path : String) : Except Cause Unit :=
  if path.toList.contains '\x00' then .error .nulInName
  else if path = "" then .error .missing
  else if pathLimit < path.utf8ByteSize then .error .nameTooLong
  else .ok ()

def checkDirectory (d : Disk) (place : Place) : Except Cause Unit :=
  if d.hasDirectory place then .ok () else .error .notDirectory

/-- Where the steps lead from `place`. Every step starts in a directory and leads to something that
is there. -/
def walk (d : Disk) (place : Place) : List Step → Except Cause Place
  | [] => .ok place
  | step :: rest => do
    d.checkDirectory place
    match step with
    | .stay => d.walk place rest
    | .up => d.walk place.dropLast rest
    | .down name =>
      checkName name
      match d.entry? (place ++ [name]) with
      | none => .error .missing
      | some _ => d.walk (place ++ [name]) rest

def start (d : Disk) (path : String) : Place :=
  if isAbsolute path then [] else d.workingDirectory

/-- What a path leads to; a slash at its end asks for a directory. -/
def find (d : Disk) (path : String) : Except Cause Place := do
  checkPath path
  let place ← d.walk (d.start path) (steps path)
  if endsInSlash path then d.checkDirectory place
  return place

def read (d : Disk) (path : String) : Except Cause ByteArray := do
  match d.entry? (← d.find path) with
  | some (.file content) => .ok content
  | some .directory => .error .isDirectory
  | none => .error .missing

def isDirectory (d : Disk) (path : String) : Bool :=
  match d.find path with
  | .ok place => d.hasDirectory place
  | .error _ => false

/-- Where the last step of a path leads, whether or not anything is there; nowhere if it is no step
down. -/
def target? (d : Disk) (path : String) : Except Cause (Option Place) := do
  checkPath path
  let parent ← d.walk (d.start path) (steps path).dropLast
  d.checkDirectory parent
  match (steps path).getLast? with
  | some (.down name) => return some (parent ++ [name])
  | _ => return none

def write (d : Disk) (path : String) (content : ByteArray) : Except Cause Disk := do
  match ← d.target? path with
  | none => .error .isDirectory
  | some place =>
    if endsInSlash path then .error .isDirectory
    else do
      checkName (place.getLast?.getD "")
      if d.hasDirectory place then .error .isDirectory
      else .ok (d.put place (.file content))

def createDirectory (d : Disk) (path : String) : Except Cause Disk := do
  match ← d.target? path with
  | none => .error .alreadyThere
  | some place =>
    checkName (place.getLast?.getD "")
    if (d.entry? place).isSome then .error .alreadyThere
    else .ok (d.put place .directory)

/-! ## Actions -/

abbrev Action := ExceptT Cause (StateM Disk)

def change (f : Disk → Except Cause Disk) : Action Unit := do
  match f (← get) with
  | .ok d => set d
  | .error cause => throw cause

/-- A directory that is there already is as good as a new one. -/
def ensureDirectory (path : String) : Action Unit :=
  tryCatch (change (·.createDirectory path)) fun cause => do
    unless (← get).isDirectory path do throw cause

def ensureAll : List String → Action Unit
  | [] => throw .missing
  | path :: above =>
    if path = "" then pure ()
    else tryCatch (ensureDirectory path) fun
      | .missing => do
        ensureAll above
        ensureDirectory path
      | cause => throw cause

instance : MonadFiles (StateM Disk) where
  readFile path := do
    match (← get : Disk).read path with
    | .ok content => return content
    | .error cause => throw cause
  writeFile path content := change (·.write path content)
  createDirectories path := ensureAll (path :: ancestors path)

end Disk

end SimSetup.Files
