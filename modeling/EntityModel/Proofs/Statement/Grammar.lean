import Mathlib.Data.List.Infix
import EntityModel.Proofs.Statement.Parsing
import EntityModel.Proofs.Text.Identifier

/-!
# The documented grammar

A statement is documented as `name : type`, followed by at most one block, or as a block alone.
The scanner accepts more: it puts the characters of a declaration together whatever separates
them, and takes a block wherever it stands. This is all that it accepts beyond the documentation.
-/

namespace EntityModel

namespace Token

structure IsWord (ts : List Token) : Prop where
  isIdentifier : Text.isIdentifier (chars ts) = true
  together : ∀ t ∈ ts.tail, t.isSpaced = false

end Token

namespace Clause

/-- The forms in which a statement is documented. -/
inductive IsDocumented (c : Clause) : Prop where
  | empty (h : c.parts = [])
  | field {name typeName : List Token} {colon : Token} (hname : Token.IsWord name)
      (hcolon : colon.char = ':') (htype : Token.IsWord typeName)
      (h : c.parts = (name ++ colon :: typeName).map .declared)
  | fieldWithBlock {name typeName : List Token} {colon : Token} {block : Part}
      (hname : Token.IsWord name) (hcolon : colon.char = ':') (htype : Token.IsWord typeName)
      (hblock : block.IsBlock) (h : c.parts = (name ++ colon :: typeName).map .declared ++ [block])
  | entityBlock {block : Part} (hblock : block.IsBlock) (h : c.parts = [block])

end Clause

def Part.declared? : Part → Option Token
  | declared t => some t
  | block _ _ _ _ => none

namespace Clause

variable {c : Clause}

def declared (c : Clause) : List Token := c.parts.filterMap Part.declared?

/-- Nothing separates the characters of the name, nor those of the type. -/
structure HasWholeWords (c : Clause) : Prop where
  name : ∀ t ∈ (c.declared.takeWhile (·.char != ':')).tail, t.isSpaced = false
  typeName : ∀ t ∈ (c.declared.dropWhile (·.char != ':')).tail.tail, t.isSpaced = false

/-- There is at most one block, and it stands before the semicolon. -/
def HasBlockLast (c : Clause) : Prop :=
  c.parts = c.declared.map .declared ∨
    ∃ block : Part, block.IsBlock ∧ c.parts = c.declared.map .declared ++ [block]

theorem declaration_eq (c : Clause) : c.declaration = Token.chars c.declared := by
  rw [declaration, declared]
  induction c.parts with
  | nil => rfl
  | cons p parts ih => cases p <;> simp [ih, List.filterMap_cons, Part.declaration, Part.declared?]

theorem name_eq (c : Clause) :
    c.name = Token.chars (c.declared.takeWhile (·.char != ':')) := by
  rw [name, declaration_eq, Token.chars, List.takeWhile_map]
  rfl

theorem typeName_eq (c : Clause) :
    c.typeName = Token.chars (c.declared.dropWhile (·.char != ':')).tail := by
  rw [typeName, declaration_eq, Token.chars, List.dropWhile_map, ← List.map_tail]
  rfl

private theorem filterMap_declared (ts : List Token) :
    (ts.map Part.declared).filterMap Part.declared? = ts := by
  rw [List.filterMap_map]
  exact List.filterMap_some

private theorem filterMap_block {block : Part} (h : block.IsBlock) :
    [block].filterMap Part.declared? = [] := by
  cases block with
  | declared t => cases h
  | block _ _ _ _ => rfl

private theorem takeWhile_word {name : List Token} {colon : Token} (typeName : List Token)
    (hname : Token.IsWord name) (hcolon : colon.char = ':') :
    (name ++ colon :: typeName).takeWhile (·.char != ':') = name ∧
      (name ++ colon :: typeName).dropWhile (·.char != ':') = colon :: typeName := by
  have hne : ∀ t ∈ name, (t.char != ':') = true := by
    intro t ht
    have hmem : t.char ∈ Token.chars name := List.mem_map_of_mem ht
    have hnot : ':' ∉ Token.chars name := Text.notMem_of_isIdentifier hname.isIdentifier
      (Text.not_isIdentifierChar_of_mem_markers (by decide))
    exact bne_iff_ne.2 fun heq => hnot (heq ▸ hmem)
  rw [List.takeWhile_append_of_pos hne, List.dropWhile_append_of_pos hne]
  simp [hcolon]

private theorem hasWholeWords_of_words {name typeName : List Token} {colon : Token}
    (hname : Token.IsWord name) (hcolon : colon.char = ':') (htype : Token.IsWord typeName)
    (h : c.declared = name ++ colon :: typeName) : c.HasWholeWords := by
  obtain ⟨htake, hdrop⟩ := takeWhile_word typeName hname hcolon
  refine ⟨?_, ?_⟩
  · rw [h, htake]
    exact hname.together
  · rw [h, hdrop]
    exact htype.together

theorem IsDocumented.hasWholeWords (h : c.IsDocumented) : c.HasWholeWords := by
  cases h with
  | empty h => exact ⟨by simp [declared, h], by simp [declared, h]⟩
  | field hname hcolon htype h =>
      refine hasWholeWords_of_words hname hcolon htype ?_
      rw [declared, h, filterMap_declared]
  | fieldWithBlock hname hcolon htype hblock h =>
      refine hasWholeWords_of_words hname hcolon htype ?_
      rw [declared, h, List.filterMap_append, filterMap_declared, filterMap_block hblock,
        List.append_nil]
  | entityBlock hblock h =>
      have hnone : c.declared = [] := by rw [declared, h, filterMap_block hblock]
      exact ⟨by simp [hnone], by simp [hnone]⟩

theorem IsDocumented.hasBlockLast (h : c.IsDocumented) : c.HasBlockLast := by
  cases h with
  | empty h => exact .inl (by simp [declared, h])
  | field hname hcolon htype h => exact .inl (by rw [declared, h, filterMap_declared])
  | fieldWithBlock hname hcolon htype hblock h =>
      refine .inr ⟨_, hblock, ?_⟩
      rw [declared, h, List.filterMap_append, filterMap_declared, filterMap_block hblock,
        List.append_nil]
  | entityBlock hblock h =>
      refine .inr ⟨_, hblock, ?_⟩
      rw [declared, h, filterMap_block hblock]
      rfl

/-- A clause that is accepted is documented if and only if its words are whole and its block, if it
has one, stands last. -/
theorem isDocumented_iff (hc : c.IsWellFormed) :
    c.IsDocumented ↔ c.HasWholeWords ∧ c.HasBlockLast := by
  refine ⟨fun h => ⟨h.hasWholeWords, h.hasBlockLast⟩, fun ⟨hwords, hlast⟩ => ?_⟩
  cases hdrop : c.declared.dropWhile (·.char != ':') with
  | nil =>
      have hnone : c.declared = [] := by
        rcases hc.declares with hempty | ⟨-, htype⟩
        · rw [declaration_eq] at hempty
          exact List.map_eq_nil_iff.1 hempty
        · rw [typeName_eq, hdrop] at htype
          cases htype
      rw [HasBlockLast, hnone] at hlast
      rcases hlast with hparts | ⟨block, hblock, hparts⟩
      · exact .empty hparts
      · exact .entityBlock hblock hparts
  | cons colon typeName =>
      have hcolon : colon.char = ':' := by
        have hhead := List.head?_dropWhile_not (·.char != ':') c.declared
        rw [hdrop] at hhead
        simpa using hhead
      have hsplit : c.declared.takeWhile (·.char != ':') ++ colon :: typeName = c.declared := by
        rw [← hdrop, List.takeWhile_append_dropWhile]
      have hdeclares := hc.declares.resolve_left fun hempty => by
        rw [declaration_eq, ← hsplit] at hempty
        simp at hempty
      rw [name_eq, typeName_eq, hdrop] at hdeclares
      have htogether := hwords.typeName
      rw [hdrop] at htogether
      have hname : Token.IsWord (c.declared.takeWhile (·.char != ':')) :=
        ⟨hdeclares.1, hwords.name⟩
      have htype : Token.IsWord typeName := ⟨hdeclares.2, htogether⟩
      rw [HasBlockLast, ← hsplit] at hlast
      rcases hlast with hparts | ⟨block, hblock, hparts⟩
      · exact .field hname hcolon htype hparts
      · exact .fieldWithBlock hname hcolon htype hblock hparts

theorem declared_infix (h : c.HasBlockLast) : c.declared <:+: c.tokens := by
  have htokens (ts : List Token) : (ts.map Part.declared).flatMap Part.tokens = ts := by
    induction ts with
    | nil => rfl
    | cons t ts ih => simp [Part.tokens, ih]
  rcases h with h | ⟨block, -, h⟩
  · rw [tokens, h, htokens]
    exact (List.prefix_append _ _).isInfix
  · rw [tokens, h, List.flatMap_append, htokens, List.append_assoc]
    exact (List.prefix_append _ _).isInfix

end Clause

namespace ParseTree

variable {tree : ParseTree}

/-- Every statement is documented, and nothing stands after the last semicolon. -/
structure IsDocumented (tree : ParseTree) : Prop where
  clauses : ∀ c ∈ tree.clauses, c.IsDocumented
  rest : tree.rest = []

theorem isDocumented_iff (h : tree.IsWellFormed) :
    tree.IsDocumented ↔
      tree.rest = [] ∧ ∀ c ∈ tree.clauses, c.HasWholeWords ∧ c.HasBlockLast := by
  constructor
  · rintro ⟨hclauses, hrest⟩
    exact ⟨hrest, fun c hc => (Clause.isDocumented_iff (h.clauses c hc)).1 (hclauses c hc)⟩
  · rintro ⟨hrest, hclauses⟩
    exact ⟨fun c hc => (Clause.isDocumented_iff (h.clauses c hc)).2 (hclauses c hc), hrest⟩

theorem IsDocumented.exists_infix (h : tree.IsDocumented) (hwell : tree.IsWellFormed)
    {s : Statement} (hs : s ∈ tree.definition.statements) (hname : s.name ≠ "") :
    ∃ name : List Token, name <:+: tree.tokens ∧ Token.IsWord name ∧
      String.ofList (Token.chars name) = s.name := by
  obtain ⟨c, hc, line, rfl⟩ := Clause.exists_of_mem_statements hs
  obtain ⟨hwords, hlast⟩ := (Clause.isDocumented_iff (hwell.clauses c hc)).1 (h.clauses c hc)
  have hidentifier : Text.isIdentifier c.name = true := by
    rcases (hwell.clauses c hc).declares with hempty | hdeclares
    · exact absurd (by simp [Clause.statement, Clause.name, hempty]) hname
    · exact hdeclares.1
  rw [Clause.name_eq] at hidentifier
  refine ⟨_, ?_, ⟨hidentifier, hwords.name⟩, by rw [← Clause.name_eq]; rfl⟩
  have htokens : c.tokens <:+: tree.tokens := by
    obtain ⟨front, back, hclauses⟩ := List.append_of_mem hc
    refine ⟨tree.name ++ tree.opening :: front.flatMap Clause.tokens,
      back.flatMap Clause.tokens ++ tree.rest.flatMap Part.tokens ++ [tree.closing], ?_⟩
    simp [tokens, hclauses]
  exact (List.takeWhile_prefix _).isInfix.trans ((Clause.declared_infix hlast).trans htokens)

end ParseTree

namespace Definition

/-- The grammar of the scanner: a text is a definition if and only if it has a parse tree, which
tells what is defined. Its statements are documented except where blanks or comments separate the
characters of a name or a type, where a block does not stand last in its statement or is not its
only one, and where a block without elements stands after the last semicolon. -/
theorem ofText_iff_parses (label text : String) :
    (∀ d, ofText label text = .ok d ↔ ∃ tree : ParseTree, tree.Parses text ∧ tree.definition = d) ∧
      ∀ tree : ParseTree, tree.Parses text → (tree.IsDocumented ↔
        tree.rest = [] ∧ ∀ c ∈ tree.clauses, c.HasWholeWords ∧ c.HasBlockLast) :=
  ⟨fun _ => ofText_eq_ok_iff, fun _ htree => ParseTree.isDocumented_iff htree.wellFormed⟩

/-- A name in two pieces is accepted: there are no four tokens in one piece that spell it. -/
theorem not_forall_isDocumented :
    ¬ ∀ label text d, ofText label text = .ok d →
      ∃ tree : ParseTree, tree.Parses text ∧ tree.IsDocumented := by
  intro h
  let text := "E \x7b\n na me : int ;\n\x7d"
  let field : Statement := ⟨"name", "int", [], [], 2⟩
  have hread : ofText "E" text = .ok ⟨some "E", [field]⟩ := by decide +kernel
  obtain ⟨tree, htree, hdocumented⟩ := h "E" text _ hread
  have hdefinition : tree.definition = ⟨some "E", [field]⟩ :=
    Except.ok.inj ((ofText_eq_ok_iff.2 ⟨tree, htree, rfl⟩).symm.trans hread)
  obtain ⟨name, ⟨front, back, htokens⟩, hword, hname⟩ :=
    hdocumented.exists_infix htree.wellFormed (s := field) (by simp [hdefinition]) (by decide)
  have hchars : Token.chars name = ['n', 'a', 'm', 'e'] := by
    rw [← String.toList_ofList (l := Token.chars name), hname]
    decide
  have hlength : name.length = 4 := by simpa [Token.chars] using congrArg List.length hchars
  rw [htree.tokens_eq, List.append_assoc] at htokens
  have hpiece : ((Token.ofText text).drop front.length).take 4 = name := by
    rw [← htokens, List.drop_left, ← hlength, List.take_left]
  have hfront : front.length < 13 := by
    have hcount : (Token.ofText text).length = 12 := by decide +kernel
    rw [← htokens, List.length_append] at hcount
    omega
  have hnone : ∀ k < 13, Token.chars (((Token.ofText text).drop k).take 4) = ['n', 'a', 'm', 'e'] →
      ∃ t ∈ (((Token.ofText text).drop k).take 4).tail, t.isSpaced = true := by decide +kernel
  obtain ⟨t, ht, hspaced⟩ := hnone front.length hfront (by rw [hpiece, hchars])
  rw [hpiece] at ht
  rw [hword.together t ht] at hspaced
  cases hspaced

end Definition

end EntityModel
