import EntityModel.Diagnostic
import EntityModel.Json

/-!
# JSON form of diagnostics
-/

namespace EntityModel

def ProblemKind.caseName : ProblemKind → String
  | grammar => "Syntax"
  | entry => "Annotation"
  | typing => "Type"
  | structural => "Structure"

def Diagnostic.toJson (d : Diagnostic) : Json := .object [
  ("kind", .string d.kind.caseName),
  ("entity", .string d.entity),
  ("field", .ofString? d.field?),
  ("message", .string d.message),
  ("line", .ofOption .ofNat d.line?)]

end EntityModel
