/-!
# Faults of the statement syntax

What can be wrong with the text of an entity definition, and where.
-/

namespace EntityModel

inductive SyntaxFault where
  | unexpected (c : Char)
  | unexpectedSingleQuote
  | unexpectedDoubleQuote
  -- a second token before the body
  | afterName (c : Char) (name : String)
  | afterBody (c : Char)
  | semicolonInParameters
  | unclosedParameters
  | unfinishedStatement
  | untypedDeclaration (declaration : String)
  | invalidFieldName (name : String)
  | invalidType (typeName name : String)
  | unterminatedQuote
  | missingBody
  | unclosedBody
  | missingEntityName
  | invalidEntityName (name : String)
deriving Repr, DecidableEq

def SyntaxFault.message : SyntaxFault → String
  | unexpected c => s!"Unexpected '{c}'"
  | unexpectedSingleQuote => "Unexpected single quote"
  | unexpectedDoubleQuote => "Unexpected double quote"
  | afterName c name => s!"Unexpected '{c}' after entity name '{name}'"
  | afterBody c => s!"Unexpected '{c}' after end of entity"
  | semicolonInParameters => "Unexpected ';' in parameters"
  | unclosedParameters => "Missing ')'"
  | unfinishedStatement => "Missing ';' before '\x7d'"
  | untypedDeclaration d => s!"Invalid field declaration '{d}' (expected name:type)"
  | invalidFieldName name => s!"Invalid field name '{name}'"
  | invalidType typeName name => s!"Invalid type '{typeName}' for field '{name}'"
  | unterminatedQuote => "Unterminated quoted value"
  | missingBody => "Entity body '\x7b ... \x7d' not found"
  | unclosedBody => "Unexpected end of file: missing '\x7d'"
  | missingEntityName => "missing entity name"
  | invalidEntityName name => s!"invalid entity name '{name}'"

structure SyntaxError where
  entity : String
  line : Nat
  fault : SyntaxFault
deriving Repr, DecidableEq

def SyntaxError.detail (e : SyntaxError) : String := e.fault.message

def SyntaxError.message (e : SyntaxError) : String :=
  e.entity ++ " : " ++ e.detail ++ " [line " ++ toString e.line ++ "]"

end EntityModel
