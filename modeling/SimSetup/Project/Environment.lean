import Std.Data.ExtTreeMap
import SimSetup.Template.Substitution
import SimSetup.Text.Segments

/-!
# The environment of a process

Names and values of variables are bytes. Those that are not text cannot be substituted and are left
out of the bindings.
-/

namespace SimSetup

abbrev Environment := List (ByteArray × ByteArray)

def Environment.bindings (env : Environment) : Template.Bindings :=
  .ofList (env.filterMap fun (name, value) => do
    return (← String.fromUTF8? name, ← String.fromUTF8? value))

/-- The variable that an entry sets: the name ends before an equals sign that is not its first
byte. -/
def Environment.ofEntry? (entry : List UInt8) : Option (ByteArray × ByteArray) :=
  let equals := '='.toUInt8
  match entry with
  | [] => none
  | first :: rest =>
    match rest.span (· ≠ equals) with
    | (_, []) => none
    | (name, _ :: value) => some (⟨(first :: name).toArray⟩, ⟨value.toArray⟩)

def Environment.ofBlock (block : ByteArray) : Environment :=
  (Text.segments 0 block.data.toList).filterMap ofEntry?

end SimSetup
