import EntityModel.Annotations.Kind
import EntityModel.NeutralType
import EntityModel.ParamBag

/-!
# Attributes
-/

namespace EntityModel

abbrev Tags := OrderedMap String (Option String)

structure Attribute where
  name : String
  type : NeutralType
  isKey : Bool
  isForeignKey : Bool
  params : ParamBag
  tags : Tags
  default? : Option String
  column? : Option String
  line? : Option Nat
deriving DecidableEq

namespace Attribute

def ofType (name : String) (type : NeutralType) : Attribute :=
  ⟨name, type, false, false, .empty, .empty, none, none, none⟩

def isNotNull (a : Attribute) : Bool := a.params.has AnnotationKind.notNull.name

def hasTag (a : Attribute) (name : String) : Bool := a.tags.contains name

end Attribute

end EntityModel
