import EntityModel.Statement
import EntityModel.Statement.Fault
import EntityModel.Text.Letter
import EntityModel.Text.Quoted

/-!
# Scanner

The scanner reads an entity definition line by line. Its phases follow the definition: the
entity's name, the body in braces, and the end. Layout and comments are dropped outside quotes,
and a quote ends on the line on which it starts. A line is read from a state to the next one,
together with the statements that end on it.
-/

namespace EntityModel

inductive Phase where
  | preamble
  | body
  | closed
deriving Repr, DecidableEq

/-- An open block: the element being read, the line on which it starts, and how many
parentheses are open in it. -/
structure Block where
  element : String
  elementLine : Nat
  depth : Nat
deriving Repr, DecidableEq

structure Draft where
  declaration : String
  annotations : List Element
  tags : List Element
  startLine? : Option Nat
  block? : Option Block
deriving Repr, DecidableEq

structure Scanner where
  phase : Phase
  name : String
  -- a separator follows the name, so that it can no longer grow
  nameEnded : Bool
  draft : Draft
  lastLine : Nat
deriving Repr, DecidableEq

namespace Draft

def empty : Draft := ⟨"", [], [], none, none⟩

def isVoid (d : Draft) : Bool :=
  d.declaration.isEmpty && d.annotations.isEmpty && d.tags.isEmpty && d.block?.isNone

def startAt (d : Draft) (line : Nat) : Draft :=
  { d with startLine? := some (d.startLine?.getD line) }

def openBlock (d : Draft) (line : Nat) : Draft :=
  { d.startAt line with block? := some ⟨"", 0, 0⟩ }

/-- Files a finished element under the annotations or the tags; an empty one is dropped. -/
def addElement (d : Draft) (b : Block) : Draft :=
  if b.element.isEmpty then d
  else if Element.isTagText b.element then { d with tags := d.tags ++ [⟨b.element, b.elementLine⟩] }
  else { d with annotations := d.annotations ++ [⟨b.element, b.elementLine⟩] }

def splitDeclaration (declaration : String) : Except SyntaxFault (String × String) :=
  let cs := declaration.toList
  match cs.dropWhile (· != ':') with
  | [] => .error (.untypedDeclaration declaration)
  | _ :: typeName =>
      let name := cs.takeWhile (· != ':')
      if !Text.isIdentifier name then .error (.invalidFieldName (String.ofList name))
      else if !Text.isIdentifier typeName then
        .error (.invalidType (String.ofList typeName) (String.ofList name))
      else .ok (String.ofList name, String.ofList typeName)

def toStatement (d : Draft) (line : Nat) : Except SyntaxFault Statement := do
  let (name, typeName) ←
    if d.declaration.isEmpty then pure ("", "") else splitDeclaration d.declaration
  return ⟨name, typeName, d.annotations, d.tags, d.startLine?.getD line⟩

end Draft

def Block.push (b : Block) (line : Nat) (c : Char) : Block :=
  let start := if b.element.isEmpty then line else b.elementLine
  ⟨b.element.push c, start, b.depth⟩

namespace Scanner

def initial : Scanner := ⟨.preamble, "", false, .empty, 0⟩

def inBlock (s : Scanner) : Bool := s.draft.block?.isSome

def declaredName? (s : Scanner) : Option String := if s.name.isEmpty then none else some s.name

def endName (s : Scanner) : Scanner :=
  if s.phase = .preamble && !s.name.isEmpty then { s with nameEnded := true } else s

def preambleChar (s : Scanner) (c : Char) : Except SyntaxFault Scanner :=
  match c with
  | '\x7b' => .ok { s with phase := .body }
  | '\x7d' | ';' => .error (.unexpected c)
  | '\'' => .error .unexpectedSingleQuote
  | '"' => .error .unexpectedDoubleQuote
  | _ => if s.nameEnded then .error (.afterName c s.name) else .ok { s with name := s.name.push c }

/-- A character of the body outside blocks, with the statement that it ends. -/
def bodyChar (s : Scanner) (line : Nat) (c : Char) :
    Except SyntaxFault (Scanner × Option Statement) :=
  match c with
  | ';' =>
      if s.draft.isVoid then .ok (s, none)
      else do
        let statement ← s.draft.toStatement line
        return ({ s with draft := .empty }, some statement)
  | '\x7b' => .ok ({ s with draft := s.draft.openBlock line }, none)
  | '\x7d' =>
      if s.draft.isVoid then .ok ({ s with phase := .closed }, none)
      else .error .unfinishedStatement
  | '\'' => .error .unexpectedSingleQuote
  | '"' => .error .unexpectedDoubleQuote
  | _ =>
      let draft := s.draft.startAt line
      .ok ({ s with draft := { draft with declaration := draft.declaration.push c } }, none)

def blockChar (d : Draft) (b : Block) (line : Nat) (c : Char) : Except SyntaxFault Draft :=
  match c with
  | '(' => .ok { d with block? := some { b.push line c with depth := b.depth + 1 } }
  | ')' =>
      if b.depth = 0 then .error (.unexpected c)
      else .ok { d with block? := some { b.push line c with depth := b.depth - 1 } }
  | ',' =>
      if b.depth = 0 then .ok { d.addElement b with block? := some { b with element := "" } }
      else .ok { d with block? := some (b.push line c) }
  | ';' =>
      if b.depth = 0 then .ok { d.addElement b with block? := some { b with element := "" } }
      else .error .semicolonInParameters
  | '\x7b' => .error (.unexpected c)
  | '\x7d' =>
      if b.depth = 0 then .ok { d.addElement b with block? := none } else .error .unclosedParameters
  | _ => .ok { d with block? := some (b.push line c) }

def char (s : Scanner) (line : Nat) (c : Char) : Except SyntaxFault (Scanner × Option Statement) :=
  match s.phase, s.draft.block? with
  | .preamble, _ => do return (← s.preambleChar c, none)
  | .closed, _ => .error (.afterBody c)
  | .body, some block => do return ({ s with draft := ← blockChar s.draft block line c }, none)
  | .body, none => s.bodyChar line c

def quotedChar (s : Scanner) (line : Nat) (c : Char) : Scanner :=
  { s with draft := { s.draft with block? := s.draft.block?.map fun b => b.push line c } }

/-- The characters of a line, with the statements that end on it; `open?` is the open quote. -/
def chars (s : Scanner) (line : Nat) (open? : Option Char) :
    List Char → Except SyntaxFault (Scanner × List Statement)
  | [] => if open?.isSome then .error .unterminatedQuote else .ok (s.endName, [])
  | c :: rest =>
      if open?.isSome then (s.quotedChar line c).chars line (Text.quoteAfter open? c) rest
      else if Text.isLayout c then s.endName.chars line none rest
      else if c = '/' && rest.head? = some '/' then .ok (s.endName, [])
      else do
        let (next, statement?) ← s.char line c
        let (last, statements) ← next.chars line (Text.quoteAfter none c) rest
        return (last, statement?.toList ++ statements)

def withoutByteOrderMark (line : Nat) (cs : List Char) : List Char :=
  if line = 1 && cs.head? = some '\uFEFF' then cs.tail else cs

/-- Reads one line: the next state, and the statements that end on the line. -/
def step (s : Scanner) (label : String) (line : Nat) (cs : List Char) :
    Except SyntaxError (Scanner × List Statement) :=
  match { s with lastLine := line }.chars line none (withoutByteOrderMark line cs) with
  | .ok result => .ok result
  | .error fault => .error ⟨label, line, fault⟩

def finish (s : Scanner) (label : String) : Except SyntaxError (Option String) :=
  match s.phase with
  | .preamble => .error ⟨label, max s.lastLine 1, .missingBody⟩
  | .body => .error ⟨label, max s.lastLine 1, .unclosedBody⟩
  | .closed => .ok s.declaredName?

end Scanner

end EntityModel
