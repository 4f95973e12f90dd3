import SimSetup.Report.Excerpt
import SimSetup.Template.Substitution

/-!
# Reports of faults in a template
-/

namespace SimSetup.Template

def Fault.remark : Fault → String
  | missingKey key _ => "'" ++ key ++ "' is not bound"
  | invalidPlaceholder .. => "expected '$$', '$name' or '$\x7bname\x7d'"

/-- A heading and the place of the fault in the template. The mark takes the numbers of the span as
they are: they name the same characters as long as the text up to the fault is ASCII. -/
def Fault.report (f : Fault) (template file : String) : String :=
  let heading := Report.paint .fault "Error:" ++ " " ++ f.message
  let rows := Report.excerpt file template.toList ⟨f.span.start, f.span.stop, f.remark⟩
  String.join ((heading :: rows).map (· ++ "\n"))

end SimSetup.Template
