import SimSetup.Command.Run

/-!
# The program
-/

namespace SimSetup

open Files (Cause MonadFiles)

/-- Some calls give the number of an error as its negative. -/
def errorNumber (code : UInt32) : Nat :=
  code.toInt32.toInt.natAbs

def causeOf (path : String) (e : IO.Error) : Cause :=
  if path.toList.contains '\x00' then .nulInName
  else match e with
    | .noFileOrDirectory .. => .missing
    | .alreadyExists .. => .alreadyThere
    | .inappropriateType _ code _ => if errorNumber code = 21 then .isDirectory else .notDirectory
    | .invalidArgument _ code details =>
      if errorNumber code = 36 then .nameTooLong else .other details
    | e => .other (toString e)

def attempt (path : String) (action : IO α) : ExceptT Cause IO α := do
  match ← (action.toBaseIO : BaseIO _) with
  | .ok a => return a
  | .error e => throw (causeOf path e)

instance : MonadFiles IO where
  readFile path := attempt path (IO.FS.readBinFile path)
  writeFile path content := attempt path (IO.FS.writeBinFile path content)
  createDirectories path := attempt path (IO.FS.createDirAll path)

end SimSetup

def main (arguments : List String) : IO UInt32 := do
  let environment := SimSetup.Environment.ofBlock (← IO.FS.readBinFile "/proc/self/environ")
  let outcome ← SimSetup.Command.run environment arguments
  (← IO.getStdout).putStr outcome.stdout
  (← IO.getStderr).putStr outcome.stderr
  return outcome.code.toUInt32
