import EntityModel.Json
import EntityModel.Table

/-!
# JSON form of schemas

All members of a table must be there; a column has defaults for what it does not say.
-/

namespace EntityModel

open Json (member member? memberD)

namespace Column

def sqlCodeOfJson? : Json → Option Int :=
  Json.integerIn? Int32.minValue.toInt Int32.maxValue.toInt

def sizeOfJson? (j : Json) : Option UInt32 :=
  (j.naturalUpTo? (UInt32.size - 1)).map UInt32.ofNat

def ofJson? (j : Json) : Option Column := do
  let ms ← j.members?
  return {
    name := ← memberD ms "name" "" Json.string?
    sqlType := ← memberD ms "sql_type" 0 sqlCodeOfJson?
    isPrimaryKey := ← memberD ms "primary_key" false Json.bool?
    isNotNull := ← memberD ms "not_null" false Json.bool?
    size? := ← member? ms "size" sizeOfJson?
    default? := ← member? ms "default_value" Json.string? }

end Column

def columnPair? : Json → Option (String × String)
  | .array [.string column, .string referenced] => some (column, referenced)
  | _ => none

def TableKey.ofJson? (j : Json) : Option TableKey := do
  let ms ← j.members?
  return {
    name := ← member ms "name" Json.string?
    referencedTable := ← member ms "referenced_table" Json.string?
    columnPairs := ← member ms "column_pairs" (Json.list? columnPair?) }

def Table.ofJson? (j : Json) : Option Table := do
  let ms ← j.members?
  return {
    name := ← member ms "name" Json.string?
    columns := ← member ms "columns" (Json.list? Column.ofJson?)
    foreignKeys := ← member ms "foreign_keys" (Json.list? TableKey.ofJson?) }

def Schema.ofJson? (j : Json) : Option Schema := do
  return ⟨← member (← j.members?) "tables" (Json.list? Table.ofJson?)⟩

end EntityModel
