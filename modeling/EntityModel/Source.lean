import EntityModel.Path

/-!
# Sources

The text of a definition, with the name of the file that it comes from if there is one. The
file name suggests the name of the entity.
-/

namespace EntityModel

structure Source where
  fileName? : Option String
  text : String
deriving Repr, DecidableEq

namespace Source

def ofText (text : String) : Source := ⟨none, text⟩

def named (fileName text : String) : Source := ⟨some fileName, text⟩

def nameHint? (s : Source) : Option String :=
  ((s.fileName?.bind Path.fileName?).map Path.stem).filter (· ≠ "")

def label (s : Source) : String := s.nameHint?.getD "<unnamed>"

end Source

end EntityModel
