import EntityModel.Entity
import EntityModel.Text.CaseMap
import EntityModel.Text.Numeral

/-!
# Effects of annotations

What an annotation leaves where it is applied: entries in the namespace of its name, and for
three kinds a field of the target as well. A kind has no effect on a target that it may not
stand on.
-/

namespace EntityModel

open ParamBag (presenceKey)

namespace AnnotationKind

def present : String × ParamValue := (presenceKey, .flag true)

def textEntry (key : String) (value? : Option String) : List (String × ParamValue) :=
  value?.toList.map fun value => (key, .text value)

def integer64? (text : String) : Option Int64 :=
  (Text.integer? text.toList).bind fun n =>
    if Int64.minValue.toInt ≤ n ∧ n ≤ Int64.maxValue.toInt then some (Int64.ofInt n) else none

/-- A generation strategy with its generator, sequence or table, and allocation size. -/
def generationEntries : List String → List (String × ParamValue)
  | [] => []
  | strategy :: rest =>
      let strategy := Text.asciiUpper strategy
      let targetKey := if strategy = "TABLE" then "tableName" else "sequenceName"
      [present, ("strategy", .text strategy)] ++
        textEntry "generator" rest[0]? ++
        textEntry targetKey rest[1]? ++
        ((rest[2]?.bind integer64?).toList.map fun size => ("allocationSize", .integer size))

def attributeEntries (kind : AnnotationKind) (arguments : Arguments) :
    List (String × ParamValue) :=
  match kind with
  | .id | .notNull | .numbersGreaterThanZeroOnly | .jsonBackReference => [present]
  | .foreignKey => present :: textEntry "referenced" arguments.values.getLast?
  | .min | .max | .defaultValue => textEntry "value" arguments.first?
  | .minMaxSize =>
      present :: (["min", "max", "message"].zip arguments.values).map fun (key, value) =>
        (key, .text value)
  | .generatedValue => generationEntries arguments.values
  | .jsonIgnore | .cascade | .fetch | .dbTable | .readOnly => []

def linkEntries (kind : AnnotationKind) (arguments : Arguments) : List (String × ParamValue) :=
  match kind with
  | .jsonIgnore | .jsonBackReference => [present]
  | .cascade => [("options", .list (arguments.values.map Text.asciiUpper))]
  | .fetch => textEntry "value" (arguments.first?.map Text.asciiUpper)
  | _ => []

def entityEntries (kind : AnnotationKind) (arguments : Arguments) : List (String × ParamValue) :=
  match kind with
  | .dbTable => textEntry "value" arguments.first?
  | .readOnly => [present]
  | _ => []

def store (kind : AnnotationKind) (entries : List (String × ParamValue)) (bag : ParamBag) :
    ParamBag :=
  entries.foldl (fun bag (key, value) => bag.set kind.name key value) bag

def applyToAttribute (kind : AnnotationKind) (arguments : Arguments) (a : Attribute) : Attribute :=
  { a with
    isKey := a.isKey || kind == .id
    default? := if kind = .defaultValue then arguments.first? <|> a.default? else a.default?
    params := kind.store (kind.attributeEntries arguments) a.params }

def applyToLink (kind : AnnotationKind) (arguments : Arguments) (l : Link) : Link :=
  { l with params := kind.store (kind.linkEntries arguments) l.params }

def applyToEntity (kind : AnnotationKind) (arguments : Arguments) (e : Entity) : Entity :=
  { e with
    table? := if kind = .dbTable then arguments.first? <|> e.table? else e.table?
    params := kind.store (kind.entityEntries arguments) e.params }

end AnnotationKind

end EntityModel
