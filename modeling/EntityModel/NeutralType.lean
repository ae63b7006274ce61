import EntityModel.Text.CaseMap

/-!
# Neutral types

The types of attributes, independent of any database or language. A type is read from one of its
names in any case of letters, and written by its canonical name.
-/

namespace EntityModel

inductive NeutralType where
  | string
  | boolean
  | byte
  | short
  | integer
  | long
  | float
  | double
  | decimal
  | date
  | time
  | timestamp
  | binary
deriving Repr, DecidableEq

namespace NeutralType

def name : NeutralType → String
  | string => "string"
  | boolean => "boolean"
  | byte => "byte"
  | short => "short"
  | integer => "int"
  | long => "long"
  | float => "float"
  | double => "double"
  | decimal => "decimal"
  | date => "date"
  | time => "time"
  | timestamp => "timestamp"
  | binary => "binary"

def ofName? (name : String) : Option NeutralType :=
  match Text.asciiLower name with
  | "string" => some string
  | "boolean" | "bool" => some boolean
  | "byte" => some byte
  | "short" => some short
  | "int" | "integer" => some integer
  | "long" => some long
  | "float" => some float
  | "double" => some double
  | "decimal" => some decimal
  | "date" => some date
  | "time" => some time
  | "timestamp" => some timestamp
  | "binary" | "blob" => some binary
  | _ => none

def isNumeric : NeutralType → Bool
  | byte | short | integer | long | float | double | decimal => true
  | _ => false

end NeutralType

end EntityModel
