/-!
# Kinds of annotations

The registry of annotations: the name of each, how many arguments it takes, and where it may
stand. One kind has a second name.
-/

namespace EntityModel

inductive Scope where
  | attribute
  | link
  | entity
deriving Repr, DecidableEq

inductive ArgumentShape where
  | none
  | single
  -- at least one
  | list
deriving Repr, DecidableEq

inductive AnnotationKind where
  | id
  | notNull
  | foreignKey
  | min
  | max
  | minMaxSize
  | defaultValue
  | generatedValue
  | numbersGreaterThanZeroOnly
  | jsonBackReference
  | jsonIgnore
  | cascade
  | fetch
  | dbTable
  | readOnly
deriving Repr, DecidableEq

namespace AnnotationKind

def all : List AnnotationKind :=
  [id, notNull, foreignKey, min, max, minMaxSize, defaultValue, generatedValue,
    numbersGreaterThanZeroOnly, jsonBackReference, jsonIgnore, cascade, fetch, dbTable, readOnly]

def name : AnnotationKind → String
  | id => "Id"
  | notNull => "NotNull"
  | foreignKey => "FK"
  | min => "Min"
  | max => "Max"
  | minMaxSize => "MinMaxSize"
  | defaultValue => "DefaultValue"
  | generatedValue => "GeneratedValue"
  | numbersGreaterThanZeroOnly => "NumbersGreaterThanZeroOnly"
  | jsonBackReference => "JsonBackReference"
  | jsonIgnore => "JsonIgnore"
  | cascade => "Cascade"
  | fetch => "Fetch"
  | dbTable => "DbTable"
  | readOnly => "ReadOnly"

def shape : AnnotationKind → ArgumentShape
  | id | notNull | numbersGreaterThanZeroOnly | jsonBackReference | jsonIgnore | readOnly => .none
  | min | max | defaultValue | fetch | dbTable => .single
  | foreignKey | minMaxSize | generatedValue | cascade => .list

def scopes : AnnotationKind → List Scope
  | jsonBackReference => [.attribute, .link]
  | jsonIgnore | cascade | fetch => [.link]
  | dbTable | readOnly => [.entity]
  | id | notNull | foreignKey | min | max | minMaxSize | defaultValue | generatedValue
  | numbersGreaterThanZeroOnly => [.attribute]

def allows (kind : AnnotationKind) (scope : Scope) : Bool := scope ∈ kind.scopes

def aliases : List (String × AnnotationKind) := [("Default", defaultValue)]

def ofName? (name : String) : Option AnnotationKind :=
  (all.find? fun kind => kind.name == name) <|> aliases.lookup name

/-- The values that an annotation chooses its arguments from, in any case of letters; none for a
kind with free arguments. -/
def options : AnnotationKind → List String
  | cascade => ["ALL", "MERGE", "PERSIST", "REFRESH", "REMOVE"]
  | fetch => ["EAGER", "LAZY"]
  | _ => []

theorem name_injective {a b : AnnotationKind} (h : a.name = b.name) : a = b := by
  cases a <;> cases b <;> first | rfl | exact absurd h (by decide)

theorem ofName?_name (kind : AnnotationKind) : ofName? kind.name = some kind := by
  cases kind <;> decide

end AnnotationKind

end EntityModel
