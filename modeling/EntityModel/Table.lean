import EntityModel.Naming
import EntityModel.NeutralType

/-!
# Tables

The metadata of a relational schema: tables with columns and foreign keys. Table and column
names become the names of entities and attributes.
-/

namespace EntityModel

structure Column where
  name : String
  sqlType : Int
  isPrimaryKey : Bool
  isNotNull : Bool
  size? : Option UInt32
  default? : Option String
deriving Repr, DecidableEq

namespace Column

def ofType (name : String) (sqlType : Int) : Column := ⟨name, sqlType, false, false, none, none⟩

def asPrimaryKey (c : Column) : Column := { c with isPrimaryKey := true, isNotNull := true }

def asNotNull (c : Column) : Column := { c with isNotNull := true }

def withSize (c : Column) (size : UInt32) : Column := { c with size? := some size }

def withDefault (c : Column) (value : String) : Column := { c with default? := some value }

end Column

/-- A foreign key of a table: pairs of a column of its own and a column of the other table. -/
structure TableKey where
  name : String
  referencedTable : String
  columnPairs : List (String × String)
deriving Repr, DecidableEq

structure Table where
  name : String
  columns : List Column
  foreignKeys : List TableKey
deriving Repr, DecidableEq

structure Schema where
  tables : List Table
deriving Repr, DecidableEq

/-- The neutral type of an SQL type code; unknown codes are strings. -/
def NeutralType.ofSqlCode : Int → NeutralType
  | -7 | 16 => .boolean
  | -6 => .byte
  | 5 => .short
  | 4 => .integer
  | -5 => .long
  | 7 => .float
  | 6 | 8 => .double
  | 2 | 3 => .decimal
  | 91 => .date
  | 92 => .time
  | 93 => .timestamp
  | 2004 | -2 | -3 | -4 => .binary
  | _ => .string

end EntityModel
