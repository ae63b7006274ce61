import EntityModel.Annotations.Kind

/-!
# Uses of annotations

An annotation as it stands in a definition: its kind, its arguments, and its line if it was read
from a text. A foreign key annotation names the key (or leaves that to the assembly), the
referenced entity, and the referenced attribute unless the key of that entity is meant.
-/

namespace EntityModel

inductive Arguments where
  | none
  | single (value : String)
  | list (values : List String)
deriving Repr, DecidableEq

namespace Arguments

def values : Arguments → List String
  | none => []
  | single value => [value]
  | list values => values

def first? (a : Arguments) : Option String := a.values.head?

end Arguments

structure AnnotationUse where
  kind : AnnotationKind
  arguments : Arguments
  line? : Option Nat
deriving Repr, DecidableEq

structure ForeignKeyTarget where
  keyName? : Option String
  entity : String
  attribute? : Option String
deriving Repr, DecidableEq

namespace ForeignKeyTarget

/-- Reads `Entity` or `Entity.attribute`, cut at the first point. -/
def ofReference (keyName? : Option String) (reference : String) : ForeignKeyTarget :=
  let cs := reference.toList
  match cs.dropWhile (· != '.') with
  | [] => ⟨keyName?, reference, none⟩
  | _ :: attr => ⟨keyName?, String.ofList (cs.takeWhile (· != '.')), some (String.ofList attr)⟩

end ForeignKeyTarget

def AnnotationUse.foreignKeyTarget? (a : AnnotationUse) : Option ForeignKeyTarget :=
  match a.kind, a.arguments.values with
  | .foreignKey, [reference] => some (.ofReference none reference)
  | .foreignKey, [keyName, reference] => some (.ofReference (some keyName) reference)
  | _, _ => none

end EntityModel
