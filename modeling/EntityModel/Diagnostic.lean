import EntityModel.Annotations.Fault
import EntityModel.Statement.Fault

/-!
# Diagnostics

What is wrong with a model, and where. A problem says what, and falls into one of four kinds; a
diagnostic adds the entity, and the field and line where these are known.
-/

namespace EntityModel

inductive ProblemKind where
  | grammar
  | entry
  | typing
  | structural
deriving Repr, DecidableEq

def ProblemKind.name : ProblemKind → String
  | grammar => "syntax"
  | entry => "annotation"
  | typing => "type"
  | structural => "structure"

inductive Problem where
  | unreadable (fault : SyntaxFault)
  | rejected (fault : AnnotationFault)
  | relationshipOnly (kind : AnnotationKind)
  | notOnField (kind : AnnotationKind)
  | notOnEntity (kind : AnnotationKind)
  | repeatedKind (kind : AnnotationKind)
  -- another column of the foreign key carries the annotation already
  | repeatedOnKey (kind : AnnotationKind) (keyName : String)
  | repeatedTag (name : String)
  | unknownType (typeName : String)
  | duplicateField (name : String)
  | duplicateColumn (name column : String)
  | duplicateEntity (name : String)
  | nameMismatch (declared source : String)
  | unknownColumn (keyName column : String)
  | unknownAttribute (keyName entity name : String)
  | unknownEntity (keyName entity : String)
  | keylessEntity (keyName entity : String)
  | moreColumns (keyName entity : String)
  | fewerColumns (keyName entity : String)
  | ambiguousKeyName (keyName entity : String)
  -- found elsewhere, in the words of who reports it
  | reported (kind : ProblemKind) (message : String)
deriving Repr, DecidableEq

namespace Problem

def kind : Problem → ProblemKind
  | unreadable _ => .grammar
  | rejected _ | relationshipOnly _ | notOnField _ | notOnEntity _ | repeatedKind _
  | repeatedOnKey _ _ | repeatedTag _ => .entry
  | unknownType _ => .typing
  | duplicateField _ | duplicateColumn _ _ | duplicateEntity _ | nameMismatch _ _
  | unknownColumn _ _ | unknownAttribute _ _ _ | unknownEntity _ _ | keylessEntity _ _
  | moreColumns _ _ | fewerColumns _ _ | ambiguousKeyName _ _ => .structural
  | reported kind _ => kind

def message : Problem → String
  | unreadable fault => fault.message
  | rejected fault => fault.message
  | relationshipOnly kind => s!"'{kind.name}' is only allowed on relationship fields (FK)"
  | notOnField kind => s!"'{kind.name}' is not allowed on a field"
  | notOnEntity kind => s!"'{kind.name}' is not allowed at entity level"
  | repeatedKind kind => s!"duplicate annotation '{kind.name}'"
  | repeatedOnKey kind key => s!"duplicate annotation '{kind.name}' on foreign key '{key}'"
  | repeatedTag name => s!"duplicate tag '#{name}'"
  | unknownType typeName => s!"unknown type '{typeName}'"
  | duplicateField name => s!"duplicate field '{name}'"
  | duplicateColumn name column => s!"duplicate field '{name}' (column '{column}')"
  | duplicateEntity name => s!"duplicate entity '{name}'"
  | nameMismatch declared source =>
      s!"entity name '{declared}' does not match file name '{source}'"
  | unknownColumn key column => s!"foreign key '{key}' uses unknown column '{column}'"
  | unknownAttribute key entity name =>
      s!"foreign key '{key}' references unknown attribute '{entity}.{name}'"
  | unknownEntity key entity => s!"foreign key '{key}' references unknown entity '{entity}'"
  | keylessEntity key entity =>
      s!"foreign key '{key}' references '{entity}' which has no key attribute"
  | moreColumns key entity => s!"foreign key '{key}' has more columns than the key of '{entity}'"
  | fewerColumns key entity => s!"foreign key '{key}' has fewer columns than the key of '{entity}'"
  | ambiguousKeyName key entity => s!"duplicate foreign key name '{key}' (references '{entity}')"
  | reported _ message => message

end Problem

structure Diagnostic where
  entity : String
  field? : Option String
  line? : Option Nat
  problem : Problem
deriving Repr, DecidableEq

namespace Diagnostic

def ofSyntaxError (e : SyntaxError) : Diagnostic :=
  ⟨e.entity, none, some e.line, .unreadable e.fault⟩

def kind (d : Diagnostic) : ProblemKind := d.problem.kind

def message (d : Diagnostic) : String := d.problem.message

/-- The whole text: `Entity.field : message [line n]`, without what is not known. -/
def text (d : Diagnostic) : String :=
  let field := (d.field?.map ("." ++ ·)).getD ""
  let line := (d.line?.map fun n => " [line " ++ toString n ++ "]").getD ""
  d.entity ++ field ++ " : " ++ d.message ++ line

end Diagnostic

abbrev Diagnostics := List Diagnostic

namespace Diagnostics

def text (ds : Diagnostics) : String := "\n".intercalate (ds.map Diagnostic.text)

def result {α : Type} (ds : Diagnostics) (value : α) : Except Diagnostics α :=
  if ds.isEmpty then .ok value else .error ds

end Diagnostics

end EntityModel
