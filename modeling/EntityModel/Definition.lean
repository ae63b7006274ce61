import EntityModel.Statement.Stream

/-!
# Entity definitions

The statements of a whole definition and the name declared before them: the scanner folded over
the lines of the text.
-/

namespace EntityModel

structure Definition where
  declaredName? : Option String
  statements : List Statement
deriving Repr, DecidableEq

namespace Definition

def ofLines (label : String) (scanner : Scanner) (lineCount : Nat) :
    List (List Char) → Except SyntaxError Definition
  | [] => do return ⟨← scanner.finish label, []⟩
  | line :: unread => do
      let (next, statements) ← scanner.step label (lineCount + 1) line
      let rest ← ofLines label next (lineCount + 1) unread
      return ⟨rest.declaredName?, statements ++ rest.statements⟩

def ofText (label text : String) : Except SyntaxError Definition :=
  ofLines label .initial 0 (Text.lines text.toList)

end Definition

end EntityModel
