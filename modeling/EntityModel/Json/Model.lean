import EntityModel.Json
import EntityModel.Model

/-!
# JSON form of models

Every part of a model is an object with a member for each of its fields, and every enumeration
is written by the names of its cases. Reading ignores further members and takes a missing
optional member for null.
-/

namespace EntityModel

open Json (member member?)

namespace OrderedMap

variable {β : Type}

def toJson (write : β → Json) (m : OrderedMap String β) : Json :=
  .object (m.entries.map fun (key, value) => (key, write value))

def ofJson? (read : Json → Option β) (j : Json) : Option (OrderedMap String β) := do
  let entries ← (← j.members?).mapM fun (key, value) => do return (key, ← read value)
  return .ofList entries

end OrderedMap

namespace ParamValue

def toJson : ParamValue → Json
  | flag value => .object [("Flag", .bool value)]
  | text value => .object [("Text", .string value)]
  | integer value => .object [("Integer", .integer value.toInt)]
  | list values => .object [("List", .ofList .string values)]

def ofJson? (j : Json) : Option ParamValue := do
  match ← j.taggedCase? with
  | ("Flag", value) => return flag (← value.bool?)
  | ("Text", value) => return text (← value.string?)
  | ("Integer", value) =>
      return integer (Int64.ofInt (← value.integerIn? Int64.minValue.toInt Int64.maxValue.toInt))
  | ("List", value) => return list (← value.list? Json.string?)
  | _ => none

end ParamValue

namespace ParamBag

def toJson (bag : ParamBag) : Json := bag.namespaces.toJson (·.toJson ParamValue.toJson)

def ofJson? (j : Json) : Option ParamBag :=
  (OrderedMap.ofJson? (OrderedMap.ofJson? ParamValue.ofJson?) j).map ParamBag.mk

end ParamBag

namespace Tags

def toJson (tags : Tags) : Json := OrderedMap.toJson Json.ofString? tags

def ofJson? (j : Json) : Option Tags := OrderedMap.ofJson? (Json.nullable? Json.string?) j

end Tags

namespace NeutralType

def all : List NeutralType :=
  [string, boolean, byte, short, integer, long, float, double, decimal, date, time, timestamp,
    binary]

def caseName : NeutralType → String
  | string => "String"
  | boolean => "Boolean"
  | byte => "Byte"
  | short => "Short"
  | integer => "Integer"
  | long => "Long"
  | float => "Float"
  | double => "Double"
  | decimal => "Decimal"
  | date => "Date"
  | time => "Time"
  | timestamp => "Timestamp"
  | binary => "Binary"

def toJson (t : NeutralType) : Json := .string t.caseName

def ofJson? (j : Json) : Option NeutralType := j.named? all caseName

end NeutralType

namespace Attribute

def toJson (a : Attribute) : Json := .object [
  ("name", .string a.name),
  ("neutral_type", a.type.toJson),
  ("is_key_element", .bool a.isKey),
  ("is_foreign_key_element", .bool a.isForeignKey),
  ("params", a.params.toJson),
  ("tags", Tags.toJson a.tags),
  ("default_value", .ofString? a.default?),
  ("db_column", .ofString? a.column?),
  ("line", .ofOption .ofNat a.line?)]

def ofJson? (j : Json) : Option Attribute := do
  let ms ← j.members?
  return {
    name := ← member ms "name" Json.string?
    type := ← member ms "neutral_type" NeutralType.ofJson?
    isKey := ← member ms "is_key_element" Json.bool?
    isForeignKey := ← member ms "is_foreign_key_element" Json.bool?
    params := ← member ms "params" ParamBag.ofJson?
    tags := ← member ms "tags" Tags.ofJson?
    default? := ← member? ms "default_value" Json.string?
    column? := ← member? ms "db_column" Json.string?
    line? := ← member? ms "line" Json.line? }

end Attribute

namespace AnnotationKind

def caseName : AnnotationKind → String
  | foreignKey => "ForeignKey"
  | kind => kind.name

def toJson (kind : AnnotationKind) : Json := .string kind.caseName

def ofJson? (j : Json) : Option AnnotationKind := j.named? all caseName

end AnnotationKind

namespace Arguments

def toJson : Arguments → Json
  | none => .string "None"
  | single value => .object [("Single", .string value)]
  | list values => .object [("List", .ofList .string values)]

def ofJson? (j : Json) : Option Arguments :=
  match j.case?, j.taggedCase? with
  | some "None", _ => some none
  | _, some ("Single", value) => value.string?.map single
  | _, some ("List", value) => (value.list? Json.string?).map list
  | _, _ => .none

end Arguments

namespace AnnotationUse

def toJson (use : AnnotationUse) : Json := .object [
  ("kind", use.kind.toJson),
  ("params", use.arguments.toJson),
  ("line", .ofOption .ofNat use.line?)]

def ofJson? (j : Json) : Option AnnotationUse := do
  let ms ← j.members?
  return {
    kind := ← member ms "kind" AnnotationKind.ofJson?
    arguments := ← member ms "params" Arguments.ofJson?
    line? := ← member? ms "line" Json.line? }

end AnnotationUse

namespace Binding

def toJson (b : Binding) : Json := .object [
  ("origin_attribute", .string b.origin),
  ("referenced_attribute", .ofString? b.referenced?)]

def ofJson? (j : Json) : Option Binding := do
  let ms ← j.members?
  return {
    origin := ← member ms "origin_attribute" Json.string?
    referenced? := ← member? ms "referenced_attribute" Json.string? }

end Binding

namespace ForeignKey

def toJson (fk : ForeignKey) : Json := .object [
  ("name", .string fk.name),
  ("origin_entity_name", .string fk.origin),
  ("referenced_entity_name", .string fk.referenced),
  ("bindings", .ofList Binding.toJson fk.bindings),
  ("link_annotations", .ofList AnnotationUse.toJson fk.linkAnnotations)]

def ofJson? (j : Json) : Option ForeignKey := do
  let ms ← j.members?
  return {
    name := ← member ms "name" Json.string?
    origin := ← member ms "origin_entity_name" Json.string?
    referenced := ← member ms "referenced_entity_name" Json.string?
    bindings := ← member ms "bindings" (Json.list? Binding.ofJson?)
    linkAnnotations := ← member ms "link_annotations" (Json.list? AnnotationUse.ofJson?) }

end ForeignKey

namespace Cardinality

def all : List Cardinality := [manyToOne, oneToMany, manyToMany]

def caseName : Cardinality → String
  | manyToOne => "ManyToOne"
  | oneToMany => "OneToMany"
  | manyToMany => "ManyToMany"

def toJson (c : Cardinality) : Json := .string c.caseName

def ofJson? (j : Json) : Option Cardinality := j.named? all caseName

end Cardinality

namespace Link

def toJson (l : Link) : Json := .object [
  ("field_name", .string l.field),
  ("referenced_entity_name", .string l.referenced),
  ("cardinality", l.cardinality.toJson),
  ("owning_side", .bool l.isOwning),
  ("inverse_side", .bool l.isInverse),
  ("based_on_foreign_key", .bool l.basedOnForeignKey),
  ("foreign_key_name", .ofString? l.foreignKey?),
  ("join_entity_name", .ofString? l.joinEntity?),
  ("params", l.params.toJson)]

def ofJson? (j : Json) : Option Link := do
  let ms ← j.members?
  return {
    field := ← member ms "field_name" Json.string?
    referenced := ← member ms "referenced_entity_name" Json.string?
    cardinality := ← member ms "cardinality" Cardinality.ofJson?
    isOwning := ← member ms "owning_side" Json.bool?
    isInverse := ← member ms "inverse_side" Json.bool?
    basedOnForeignKey := ← member ms "based_on_foreign_key" Json.bool?
    foreignKey? := ← member? ms "foreign_key_name" Json.string?
    joinEntity? := ← member? ms "join_entity_name" Json.string?
    params := ← member ms "params" ParamBag.ofJson? }

end Link

namespace Entity

def toJson (e : Entity) : Json := .object [
  ("name", .string e.name),
  ("attributes", .ofList Attribute.toJson e.attributes),
  ("foreign_keys", .ofList ForeignKey.toJson e.foreignKeys),
  ("links", .ofList Link.toJson e.links),
  ("params", e.params.toJson),
  ("tags", Tags.toJson e.tags),
  ("db_table", .ofString? e.table?)]

def ofJson? (j : Json) : Option Entity := do
  let ms ← j.members?
  return {
    name := ← member ms "name" Json.string?
    attributes := ← member ms "attributes" (Json.list? Attribute.ofJson?)
    foreignKeys := ← member ms "foreign_keys" (Json.list? ForeignKey.ofJson?)
    links := ← member ms "links" (Json.list? Link.ofJson?)
    params := ← member ms "params" ParamBag.ofJson?
    tags := ← member ms "tags" Tags.ofJson?
    table? := ← member? ms "db_table" Json.string? }

end Entity

namespace Model

def toJson (m : Model) : Json := .object [("entities", m.entities.toJson Entity.toJson)]

def ofJson? (j : Json) : Option Model := do
  return ⟨← member (← j.members?) "entities" (OrderedMap.ofJson? Entity.ofJson?)⟩

end Model

end EntityModel
