import EntityModel.ParamBag

/-!
# Links

A link is a field that leads from one entity to others: along a foreign key, back along one, or
through a join entity.
-/

namespace EntityModel

inductive Cardinality where
  | manyToOne
  | oneToMany
  | manyToMany
deriving Repr, DecidableEq

def Cardinality.name : Cardinality → String
  | manyToOne => "MANY_TO_ONE"
  | oneToMany => "ONE_TO_MANY"
  | manyToMany => "MANY_TO_MANY"

structure Link where
  field : String
  referenced : String
  cardinality : Cardinality
  isOwning : Bool
  isInverse : Bool
  basedOnForeignKey : Bool
  foreignKey? : Option String
  joinEntity? : Option String
  params : ParamBag
deriving DecidableEq

namespace Link

def ofCardinality (field referenced : String) (cardinality : Cardinality) : Link :=
  ⟨field, referenced, cardinality, false, false, false, none, none, .empty⟩

def isCollection (l : Link) : Bool := l.cardinality ≠ .manyToOne

end Link

end EntityModel
