import SimSetup.Deployment
import SimSetup.Snapshot.Store

/-!
# Faults of the whole setup

A fault of any part, told with the name of the part.
-/

namespace SimSetup

inductive Fault
  | boundary (cause : Boundary.Fault)
  | snapshot (cause : Snapshot.StoreFault)
  | deployment (cause : Deployment.Fault)
  | config (cause : Project.Config.Fault)
  deriving DecidableEq, Repr

def Fault.part : Fault → String
  | boundary _ => "model"
  | snapshot _ => "snapshot"
  | deployment _ => "template"
  | config _ => "config"

def Fault.detail : Fault → String
  | boundary cause => cause.message
  | snapshot cause => cause.message
  | deployment cause => cause.message
  | config cause => cause.message

def Fault.message (f : Fault) : String := f.part ++ " error: " ++ f.detail

end SimSetup
