import EntityModel.Proofs.Statement.Nesting
import EntityModel.Proofs.Statement.Tokens
import EntityModel.Text.Letter

/-!
# Parse trees

The tokens of a definition in their structure. The body is a sequence of clauses, each up to a
semicolon outside blocks; a clause consists of the characters of its declaration and of blocks,
and a block of elements between separators. The tree tells which statements the definition has.
-/

namespace EntityModel

namespace Token

def chars (ts : List Token) : List Char := ts.map char

@[simp] theorem chars_nil : chars [] = [] := rfl

@[simp] theorem chars_cons (t : Token) (ts : List Token) : chars (t :: ts) = t.char :: chars ts :=
  rfl

@[simp] theorem chars_append (ts us : List Token) : chars (ts ++ us) = chars ts ++ chars us :=
  List.map_append

def IsPlain (t : Token) : Prop :=
  Text.isLayout t.char = false ∧ t.char ≠ ';' ∧ t.char ≠ '\x7b' ∧ t.char ≠ '\x7d' ∧
    t.char ≠ '\'' ∧ t.char ≠ '"'

instance (t : Token) : Decidable t.IsPlain := inferInstanceAs (Decidable (_ ∧ _))

theorem IsPlain.quoteAfter_eq_none {t : Token} (ht : t.IsPlain) :
    Text.quoteAfter none t.char = none := by
  obtain ⟨-, -, -, -, hsingle, hdouble⟩ := ht
  simp [Text.quoteAfter, Text.isQuote, hsingle, hdouble]

def IsEntry (ts : List Token) : Prop := Nesting.outside.afterAll? (chars ts) = some .outside

instance (ts : List Token) : Decidable (IsEntry ts) := inferInstanceAs (Decidable (_ = _))

end Token

def Element.ofTokens? : List Token → Option Element
  | [] => none
  | t :: ts => some ⟨String.ofList (Token.chars (t :: ts)), t.line⟩

/-- A character of the declaration, or a block: its braces and the entries between them, all but
the last with the separator after it. -/
inductive Part where
  | declared (t : Token)
  | block (opening : Token) (entries : List (List Token × Token)) (last : List Token)
      (closing : Token)
deriving DecidableEq

namespace Part

def tokens : Part → List Token
  | declared t => [t]
  | block opening entries last closing =>
      opening :: (entries.flatMap fun (entry, separator) => entry ++ [separator]) ++
        (last ++ [closing])

def line : Part → Nat
  | declared t => t.line
  | block opening _ _ _ => opening.line

def declaration : Part → List Char
  | declared t => [t.char]
  | block _ _ _ _ => []

def elements : Part → List Element
  | declared _ => []
  | block _ entries last _ =>
      (entries.flatMap fun (entry, _) => (Element.ofTokens? entry).toList) ++
        (Element.ofTokens? last).toList

def IsWellFormed : Part → Prop
  | declared t => t.IsPlain
  | block opening entries last closing => opening.char = '\x7b' ∧
      (∀ e ∈ entries, Token.IsEntry e.1 ∧ (e.2.char = ',' ∨ e.2.char = ';')) ∧
      Token.IsEntry last ∧ closing.char = '\x7d'

instance : (p : Part) → Decidable p.IsWellFormed
  | declared t => inferInstanceAs (Decidable t.IsPlain)
  | block _ _ _ _ => inferInstanceAs (Decidable (_ ∧ _))

def IsBlock : Part → Prop
  | declared _ => False
  | block _ _ _ _ => True

end Part

/-- What stands up to a semicolon of the body. -/
structure Clause where
  parts : List Part
  semicolon : Token
deriving DecidableEq

namespace Clause

variable (c : Clause)

def tokens : List Token := c.parts.flatMap Part.tokens ++ [c.semicolon]

def declaration : List Char := c.parts.flatMap Part.declaration

def elements : List Element := c.parts.flatMap Part.elements

def line? : Option Nat := c.parts.head?.map Part.line

def name : List Char := c.declaration.takeWhile (· != ':')

def typeName : List Char := (c.declaration.dropWhile (· != ':')).tail

/-- The clause yields no statement: it declares nothing and has no element. -/
def IsVoid : Prop := c.declaration = [] ∧ c.elements = []

instance : Decidable c.IsVoid := inferInstanceAs (Decidable (_ ∧ _))

structure IsWellFormed : Prop where
  parts : ∀ p ∈ c.parts, p.IsWellFormed
  declares : c.declaration = [] ∨
    Text.isIdentifier c.name = true ∧ Text.isIdentifier c.typeName = true
  semicolon : c.semicolon.char = ';'

instance : Decidable c.IsWellFormed :=
  decidable_of_iff ((∀ p ∈ c.parts, p.IsWellFormed) ∧
      (c.declaration = [] ∨ Text.isIdentifier c.name = true ∧ Text.isIdentifier c.typeName = true) ∧
      c.semicolon.char = ';')
    ⟨fun h => ⟨h.1, h.2.1, h.2.2⟩, fun h => ⟨h.1, h.2, h.3⟩⟩

def statement (line : Nat) : Statement where
  name := String.ofList c.name
  typeName := String.ofList c.typeName
  annotations := c.elements.filter fun e => !Element.isTagText e.text
  tags := c.elements.filter fun e => Element.isTagText e.text
  line := line

/-- The statements of clauses. The line on which a clause starts is kept until a clause yields a
statement, which then stands on the first line that is kept. -/
def statements (start? : Option Nat) : List Clause → List Statement
  | [] => []
  | c :: rest =>
      if c.IsVoid then statements (start?.or c.line?) rest
      else c.statement ((start?.or c.line?).getD c.semicolon.line) :: statements none rest

theorem exists_of_mem_statements {start? : Option Nat} {cs : List Clause} {s : Statement}
    (h : s ∈ statements start? cs) : ∃ c ∈ cs, ∃ line, c.statement line = s := by
  induction cs generalizing start? with
  | nil => cases h
  | cons c cs ih =>
      rw [statements] at h
      split at h
      · obtain ⟨c', hc', hs⟩ := ih h
        exact ⟨c', List.mem_cons_of_mem c hc', hs⟩
      · rcases List.mem_cons.1 h with rfl | h
        · exact ⟨c, List.mem_cons_self, _, rfl⟩
        · obtain ⟨c', hc', hs⟩ := ih h
          exact ⟨c', List.mem_cons_of_mem c hc', hs⟩

end Clause

structure ParseTree where
  name : List Token
  opening : Token
  clauses : List Clause
  -- what stands after the last semicolon
  rest : List Part
  closing : Token
deriving DecidableEq

namespace ParseTree

variable (tree : ParseTree)

def tokens : List Token :=
  tree.name ++ tree.opening :: tree.clauses.flatMap Clause.tokens ++
    tree.rest.flatMap Part.tokens ++ [tree.closing]

def definition : Definition where
  declaredName? := if tree.name = [] then none else some (String.ofList (Token.chars tree.name))
  statements := Clause.statements none tree.clauses

/-- Nothing separates the characters of the name, and only blocks without elements may stand after
the last semicolon. -/
structure IsWellFormed : Prop where
  name : ∀ t ∈ tree.name, t.IsPlain
  nameTogether : ∀ t ∈ tree.name.tail, t.isSpaced = false
  opening : tree.opening.char = '\x7b'
  clauses : ∀ c ∈ tree.clauses, c.IsWellFormed
  rest : ∀ p ∈ tree.rest, p.IsWellFormed ∧ p.declaration = [] ∧ p.elements = []
  closing : tree.closing.char = '\x7d'

instance : Decidable tree.IsWellFormed :=
  decidable_of_iff ((∀ t ∈ tree.name, t.IsPlain) ∧ (∀ t ∈ tree.name.tail, t.isSpaced = false) ∧
      tree.opening.char = '\x7b' ∧ (∀ c ∈ tree.clauses, c.IsWellFormed) ∧
      (∀ p ∈ tree.rest, p.IsWellFormed ∧ p.declaration = [] ∧ p.elements = []) ∧
      tree.closing.char = '\x7d')
    ⟨fun ⟨hn, ht, ho, hc, hr, hb⟩ => ⟨hn, ht, ho, hc, hr, hb⟩,
      fun h => ⟨h.name, h.nameTogether, h.opening, h.clauses, h.rest, h.closing⟩⟩

/-- The tree is well formed, and its tokens are those of the text. -/
structure Parses (text : String) : Prop where
  wellFormed : tree.IsWellFormed
  tokens_eq : tree.tokens = Token.ofText text

end ParseTree

end EntityModel
