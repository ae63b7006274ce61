import EntityModel.Annotations.Kind
import EntityModel.Entry

/-!
# Faults of annotations and tags

Why a single annotation or tag cannot be used, wherever it stands.
-/

namespace EntityModel

inductive AnnotationFault where
  | entry (fault : EntryFault)
  | values (owner : String) (fault : ValueFault)
  | unknown (name : String)
  | argumentsUnexpected (kind : AnnotationKind)
  | argumentMissing (kind : AnnotationKind)
  | argumentsExceeded (kind : AnnotationKind)
  | argumentsMissing (kind : AnnotationKind)
  | foreignKeyArguments
  | invalidReference (reference : String)
  | notNumeric (kind : AnnotationKind)
  | sizeTooShort
  | sizeTooLong
  | sizeNotNatural
  | sizeInverted (min max : Nat)
  | strategyMissing
  | strategyAlone (strategy : String)
  | unknownStrategy (strategy : String)
  | sequenceArguments
  | tableArguments
  | invalidAllocationSize (size : String)
  | invalidOption (kind : AnnotationKind) (value : String)
  | tableNameMissing
  | tagValues (name : String)
deriving Repr, DecidableEq

def AnnotationFault.message : AnnotationFault → String
  | entry fault => fault.message
  | values owner fault => s!"'{owner}' : {fault.message}"
  | unknown name => s!"unknown annotation '{name}'"
  | argumentsUnexpected kind => s!"'{kind.name}' does not accept parameters"
  | argumentMissing kind => s!"'{kind.name}' requires one parameter"
  | argumentsExceeded kind => s!"'{kind.name}' accepts only one parameter"
  | argumentsMissing kind => s!"'{kind.name}' requires at least one parameter"
  | foreignKeyArguments => "'FK' expects 1 or 2 parameters: [name,] Entity[.attribute]"
  | invalidReference reference => s!"'FK' : invalid referenced entity '{reference}'"
  | notNumeric kind => s!"'{kind.name}' requires a numeric value"
  | sizeTooShort => "'MinMaxSize' : at least 2 parameters required Min, Max"
  | sizeTooLong => "'MinMaxSize' : at most 3 parameters Min, Max, Message"
  | sizeNotNatural => "'MinMaxSize' : Min and Max must be non-negative integers"
  | sizeInverted min max => s!"'MinMaxSize' : Min ({min}) greater than Max ({max})"
  | strategyMissing => "'GeneratedValue' : strategy required"
  | strategyAlone strategy => s!"'GeneratedValue' : {strategy} takes no other parameter"
  | unknownStrategy strategy => s!"'GeneratedValue' : unknown strategy '{strategy}'"
  | sequenceArguments =>
      "'GeneratedValue' : SEQUENCE, GeneratorName, SequenceName[, AllocationSize] expected"
  | tableArguments => "'GeneratedValue' : TABLE, GeneratorName, TableName expected"
  | invalidAllocationSize size => s!"'GeneratedValue' : invalid allocation size '{size}'"
  | invalidOption kind value =>
      let expected := ", ".intercalate kind.options
      s!"'{kind.name}' : invalid option '{value}' (expected one of {expected})"
  | tableNameMissing => "'DbTable' requires a table name"
  | tagValues name => s!"tag '#{name}' accepts at most one parameter"

end EntityModel
