import SimSetup.Files.Disk
import SimSetup.Snapshot.Document

/-!
# Snapshots in files
-/

namespace SimSetup.Snapshot

open Files (MonadFiles)

inductive StoreFault
  | inaccessible (path : String) (cause : Files.Cause)
  | content (fault : Fault)
  deriving DecidableEq, Repr

def Fault.message : Fault → String
  | unreadable => "failed to parse snapshot TOML: " ++ Toml.parseError
  | unwritable => "failed to write snapshot TOML: unsupported None value"
  | boundary index cause => "iolet #" ++ toString index ++ ": " ++ cause.message

def StoreFault.message : StoreFault → String
  | inaccessible path cause => "failed to access snapshot " ++ path ++ ": " ++ cause.message
  | content fault => fault.message

variable {m : Type → Type} [Monad m] [MonadFiles m]

def load (path : String) : ExceptT StoreFault m (List Boundary) := do
  let text ← (Files.readText path).adapt (.inaccessible path)
  match read text with
  | .ok boundaries => return boundaries
  | .error fault => throw (.content fault)

/-- Replaces what the file held. -/
def save (path : String) (boundaries : List Boundary) : ExceptT StoreFault m Unit := do
  match write boundaries with
  | .ok text => (Files.writeFile path text.toUTF8).adapt (.inaccessible path)
  | .error fault => throw (.content fault)

end SimSetup.Snapshot
