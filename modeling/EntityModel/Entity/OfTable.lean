import EntityModel.Diagnostic
import EntityModel.Entity
import EntityModel.Table
import EntityModel.Text.Quoted

/-!
# Entities of tables

A table becomes an entity: each column an attribute, unless its name is taken, and each foreign
key with at least one known column a foreign key whose bindings are all explicit.
-/

namespace EntityModel

/-- A column default without control characters below the space, without blanks around it, and
without the quotes at its ends. -/
def cleanDefault (value : String) : String :=
  String.ofList (Text.stripQuotes (Text.trim (value.toList.filter fun c => ' ' ≤ c)))

def sizeNamespace : String := "DbSize"

def sizeKey : String := "value"

namespace Column

def params (c : Column) : ParamBag :=
  let bag := if c.isNotNull then ParamBag.empty.setFlag AnnotationKind.notNull.name else .empty
  match c.size? with
  | some size => bag.set sizeNamespace sizeKey (.integer (Int64.ofNat size.toNat))
  | none => bag

def toAttribute [Naming] (c : Column) : Attribute :=
  { Attribute.ofType (attributeNameOf c.name) (.ofSqlCode c.sqlType) with
    isKey := c.isPrimaryKey
    params := c.params
    default? := (c.default?.map cleanDefault).filter (· ≠ "")
    column? := some c.name }

end Column

namespace Entity

def addColumn [Naming] (s : Entity × Diagnostics) (c : Column) : Entity × Diagnostics :=
  let (e, ds) := s
  let name := attributeNameOf c.name
  if (e.attribute? name).isSome then
    (e, ds ++ [⟨e.name, some name, none, .duplicateColumn name c.name⟩])
  else (e.addAttribute c.toAttribute, ds)

/-- Adds the foreign key of a table, without the pairs whose own column is not known; these are
reported, and a key without any pair left is dropped. -/
def addTableKey [Naming] (s : Entity × Diagnostics) (key : TableKey) : Entity × Diagnostics :=
  let (e, ds) := s
  let isKnown (pair : String × String) : Bool := (e.attribute? (attributeNameOf pair.1)).isSome
  let bindings := (key.columnPairs.filter isKnown).map fun pair =>
    (⟨attributeNameOf pair.1, some (attributeNameOf pair.2)⟩ : Binding)
  let unknown := (key.columnPairs.filter fun pair => !isKnown pair).map fun pair =>
    (⟨e.name, none, none, .unknownColumn key.name pair.1⟩ : Diagnostic)
  let attributes := bindings.foldl (fun as b => markForeignKey b.origin as) e.attributes
  let keys :=
    if bindings.isEmpty then []
    else [(⟨key.name, e.name, entityNameOf key.referencedTable, bindings, []⟩ : ForeignKey)]
  ({ e with attributes := attributes, foreignKeys := e.foreignKeys ++ keys }, ds ++ unknown)

def ofTable [Naming] (t : Table) : Entity × Diagnostics :=
  let e := { Entity.ofName (entityNameOf t.name) with table? := some t.name }
  t.foreignKeys.foldl addTableKey (t.columns.foldl addColumn (e, []))

end Entity

end EntityModel
