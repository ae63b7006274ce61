import EntityModel.Attribute
import EntityModel.ForeignKey
import EntityModel.Link

/-!
# Entities

Attributes and links are the fields of an entity and share their names. An entity is a join
entity if it has two foreign keys and nothing but attributes of its key that they bind.
-/

namespace EntityModel

structure Entity where
  name : String
  attributes : List Attribute
  foreignKeys : List ForeignKey
  links : List Link
  params : ParamBag
  tags : Tags
  table? : Option String
deriving DecidableEq

namespace Entity

def ofName (name : String) : Entity := ⟨name, [], [], [], .empty, .empty, none⟩

def attribute? (e : Entity) (name : String) : Option Attribute :=
  e.attributes.find? fun a => a.name == name

def link? (e : Entity) (field : String) : Option Link := e.links.find? fun l => l.field == field

def foreignKey? (e : Entity) (name : String) : Option ForeignKey :=
  e.foreignKeys.find? fun fk => fk.name == name

def hasField (e : Entity) (name : String) : Bool :=
  (e.attribute? name).isSome || (e.link? name).isSome

def keyAttributes (e : Entity) : List Attribute := e.attributes.filter Attribute.isKey

def isJoin (e : Entity) : Bool :=
  e.foreignKeys.length == 2 && e.attributes.all fun a => a.isKey && a.isForeignKey

def addAttribute (e : Entity) (a : Attribute) : Entity :=
  { e with attributes := e.attributes ++ [a] }

def addForeignKey (e : Entity) (fk : ForeignKey) : Entity :=
  { e with foreignKeys := e.foreignKeys ++ [fk] }

def addLink (e : Entity) (l : Link) : Entity := { e with links := e.links ++ [l] }

def markForeignKey (name : String) : List Attribute → List Attribute
  | [] => []
  | a :: rest =>
      if a.name = name then { a with isForeignKey := true } :: rest
      else a :: markForeignKey name rest

/-- Adds a column to the first key with the name and target, if there is one, together with the
link annotations that the key does not carry yet; the others are given back. -/
def extendForeignKey (name referenced : String) (b : Binding) (uses : List AnnotationUse) :
    List ForeignKey → Option (List ForeignKey × List AnnotationUse)
  | [] => none
  | fk :: rest =>
      if fk.name = name ∧ fk.referenced = referenced then
        let (extended, duplicates) := fk.addBinding b uses
        some (extended :: rest, duplicates)
      else
        (extendForeignKey name referenced b uses rest).map fun (keys, duplicates) =>
          (fk :: keys, duplicates)

def declareForeignKey (e : Entity) (name referenced : String) (b : Binding)
    (uses : List AnnotationUse) : Entity × List AnnotationUse :=
  let attributes := markForeignKey b.origin e.attributes
  match extendForeignKey name referenced b uses e.foreignKeys with
  | some (keys, duplicates) =>
      ({ e with attributes := attributes, foreignKeys := keys }, duplicates)
  | none =>
      ({ e with
          attributes := attributes
          foreignKeys := e.foreignKeys ++ [⟨name, e.name, referenced, [b], uses⟩] },
        [])

end Entity

end EntityModel
