import EntityModel.Text.Blank

/-!
# Statements

The body of an entity definition is a sequence of statements. A statement declares an attribute
(`name : type`), carries a block of elements, or both; one without a declaration is a block for
the entity itself. Elements are kept as written, less the layout outside quotes, with the line
on which each starts.
-/

namespace EntityModel

structure Element where
  text : String
  line : Nat
deriving Repr, DecidableEq

/-- The text of a tag starts with a number sign, blanks before it aside; every other text is that
of an annotation. -/
def Element.isTagText (text : String) : Bool := (Text.trimStart text.toList).head? == some '#'

structure Statement where
  -- empty, like the type, if the statement declares no attribute
  name : String
  typeName : String
  annotations : List Element
  tags : List Element
  line : Nat
deriving Repr, DecidableEq

/-- The statement declares no attribute: its elements are meant for the entity. -/
def Statement.isEntityBlock (s : Statement) : Bool := s.name.isEmpty && s.typeName.isEmpty

end EntityModel
