import EntityModel.Annotations.Fault
import EntityModel.Annotations.Use
import EntityModel.Path
import EntityModel.Text.CaseMap
import EntityModel.Text.Numeral

/-!
# Checking arguments

Each kind of annotation accepts a number of arguments and, beyond that, arguments of a form of
its own: a reference, a number, a pair of bounds, a generation strategy, options, a table name.
-/

namespace EntityModel

def Arguments.ofValues (kind : AnnotationKind) (values : List String) :
    Except AnnotationFault Arguments :=
  match kind.shape, values with
  | .none, [] => .ok .none
  | .none, _ => .error (.argumentsUnexpected kind)
  | .single, [value] => .ok (.single value)
  | .single, [] => .error (.argumentMissing kind)
  | .single, _ => .error (.argumentsExceeded kind)
  | .list, [] => .error (.argumentsMissing kind)
  | .list, values => .ok (.list values)

/-- A reference is an entity, or an entity, a point and an attribute; neither part is empty or
holds another point. -/
def isReference (reference : String) : Bool :=
  match Path.splitAt '.' reference.toList with
  | [entity] => !entity.isEmpty
  | [entity, attr] => !entity.isEmpty && !attr.isEmpty
  | _ => false

def checkForeignKey : List String → Except AnnotationFault Unit
  | [reference] | [_, reference] =>
      if isReference reference then .ok () else .error (.invalidReference reference)
  | _ => .error .foreignKeyArguments

def checkNumber (kind : AnnotationKind) : Option String → Except AnnotationFault Unit
  | some value =>
      if Text.isFiniteNumeral value.toList then .ok () else .error (.notNumeric kind)
  | none => .error (.notNumeric kind)

def naturalBelow? (bound : Nat) (text : String) : Option Nat :=
  (Text.natural? text.toList).filter (· < bound)

def checkSizes : List String → Except AnnotationFault Unit
  | min :: max :: rest =>
      if 1 < rest.length then .error .sizeTooLong
      else
        match naturalBelow? UInt64.size min, naturalBelow? UInt64.size max with
        | some min, some max => if max < min then .error (.sizeInverted min max) else .ok ()
        | _, _ => .error .sizeNotNatural
  | _ => .error .sizeTooShort

def checkSequence : List String → Except AnnotationFault Unit
  | [_, _] => .ok ()
  | [_, _, size] =>
      if (naturalBelow? UInt32.size size).isSome then .ok () else .error (.invalidAllocationSize size)
  | _ => .error .sequenceArguments

def checkGeneratedValue : List String → Except AnnotationFault Unit
  | [] => .error .strategyMissing
  | strategy :: rest =>
      match Text.asciiUpper strategy with
      | "AUTO" | "IDENTITY" => if rest.isEmpty then .ok () else .error (.strategyAlone strategy)
      | "SEQUENCE" => checkSequence rest
      | "TABLE" => if rest.length = 2 then .ok () else .error .tableArguments
      | _ => .error (.unknownStrategy strategy)

def checkOptions (kind : AnnotationKind) (values : List String) : Except AnnotationFault Unit :=
  match values.find? fun value => !kind.options.contains (Text.asciiUpper value) with
  | some value => .error (.invalidOption kind value)
  | none => .ok ()

def checkTableName : Option String → Except AnnotationFault Unit
  | some name => if Text.allBlank name.toList then .error .tableNameMissing else .ok ()
  | none => .error .tableNameMissing

def AnnotationKind.check (kind : AnnotationKind) (arguments : Arguments) :
    Except AnnotationFault Unit :=
  match kind with
  | .foreignKey => checkForeignKey arguments.values
  | .min | .max => checkNumber kind arguments.first?
  | .minMaxSize => checkSizes arguments.values
  | .generatedValue => checkGeneratedValue arguments.values
  | .cascade | .fetch => checkOptions kind arguments.values
  | .dbTable => checkTableName arguments.first?
  | _ => .ok ()

end EntityModel
