import Std.Data.ExtTreeMap
import SimSetup.Template.Token

/-!
# Filling a template

Every placeholder is replaced by its binding, a doubled dollar sign by one. A value is copied as it
is: dollar signs in it open nothing. The leftmost token that has no meaning is the fault.
-/

namespace SimSetup.Template

open Text (Span Position)

abbrev Bindings := Std.ExtTreeMap String String

inductive Fault
  /-- A placeholder has no binding. -/
  | missingKey (key : String) (span : Span)
  /-- A dollar sign opens no placeholder. -/
  | invalidPlaceholder (span : Span) (position : Position)
  deriving DecidableEq, Repr

namespace Fault

def span : Fault → Span
  | missingKey _ span | invalidPlaceholder span _ => span

def message : Fault → String
  | missingKey key _ => "no value for placeholder '$" ++ key ++ "'"
  | invalidPlaceholder _ position =>
    "invalid placeholder at line " ++ toString position.line ++ ", column "
      ++ toString position.column

end Fault

/-- What stands for one token of `template` in its filled form. -/
def expand (template : String) (bindings : Bindings) : Token × Span → Except Fault String
  | (.text run, _) => .ok run
  | (.escape, _) => .ok "$"
  | (.named key, span) | (.braced key, span) =>
    match bindings[key]? with
    | some value => .ok value
    | none => .error (.missingKey key span)
  | (.stray, span) | (.unclosed _, span) =>
    .error (.invalidPlaceholder span (Text.position template.toList span.start))

def substitute (template : String) (bindings : Bindings) : Except Fault String :=
  String.join <$> (lex template).mapM (expand template bindings)

end SimSetup.Template
