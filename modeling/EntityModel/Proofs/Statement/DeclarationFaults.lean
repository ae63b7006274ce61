import EntityModel.Proofs.Statement.Faults
import EntityModel.Proofs.Statement.Parsing
import Mathlib.Control.Monad.Basic

/-!
# Lines of faulty declarations

Up to a faulty declaration a text is read like any other: a name, the brace that opens the body,
and clauses. The fault is found at the semicolon of the clause after these and reported for its
line, which is the line on which the clause starts only if all of the clause stands there.
-/

namespace EntityModel

namespace Token

theorem scan_cons_cases (cover : Cover) (line : Nat) (isSpaced : Bool) (c : Char)
    (rest : List Char) :
    (∃ cover' line', line ≤ line' ∧
      scan cover line isSpaced (c :: rest) = scan cover' line' true rest) ∨
    ∃ cover', scan cover line isSpaced (c :: rest) =
      ⟨c, line, isSpaced⟩ :: scan cover' line false rest := by
  cases cover with
  | quoted q => exact .inr ⟨_, rfl⟩
  | comment =>
      rw [scan]
      left
      split
      · exact ⟨_, _, Nat.le_succ line, rfl⟩
      · exact ⟨_, _, Nat.le_refl line, rfl⟩
  | uncovered =>
      rw [scan]
      split
      · exact .inl ⟨_, _, Nat.le_succ line, rfl⟩
      · split
        · exact .inl ⟨_, _, Nat.le_refl line, rfl⟩
        · split
          · exact .inl ⟨_, _, Nat.le_refl line, rfl⟩
          · exact .inr ⟨_, rfl⟩

theorem pairwise_line_scan (cover : Cover) (line : Nat) (isSpaced : Bool) (cs : List Char) :
    (scan cover line isSpaced cs).Pairwise (fun t u => t.line ≤ u.line) ∧
      ∀ t ∈ scan cover line isSpaced cs, line ≤ t.line := by
  induction cs generalizing cover line isSpaced with
  | nil => exact ⟨.nil, by simp [scan]⟩
  | cons c rest ih =>
      rcases scan_cons_cases cover line isSpaced c rest with
        ⟨cover', line', hline, hscan⟩ | ⟨cover', hscan⟩
      · rw [hscan]
        obtain ⟨hpairwise, hle⟩ := ih cover' line' true
        exact ⟨hpairwise, fun t ht => Nat.le_trans hline (hle t ht)⟩
      · rw [hscan, List.pairwise_cons, List.forall_mem_cons]
        obtain ⟨hpairwise, hle⟩ := ih cover' line false
        exact ⟨⟨hle, hpairwise⟩, Nat.le_refl line, hle⟩

end Token

structure Beginning where
  name : List Token
  opening : Token
  clauses : List Clause
deriving DecidableEq

namespace Beginning

variable (front : Beginning)

def tokens : List Token := front.name ++ front.opening :: front.clauses.flatMap Clause.tokens

structure IsWellFormed : Prop where
  name : ∀ t ∈ front.name, t.IsPlain
  nameTogether : ∀ t ∈ front.name.tail, t.isSpaced = false
  opening : front.opening.char = '\x7b'
  clauses : ∀ c ∈ front.clauses, c.IsWellFormed

def concat (c : Clause) : Beginning := { front with clauses := front.clauses ++ [c] }

variable {front}

theorem tokens_concat (c : Clause) : (front.concat c).tokens = front.tokens ++ c.tokens := by
  simp [tokens, concat]

theorem IsWellFormed.concat (h : front.IsWellFormed) {c : Clause} (hc : c.IsWellFormed) :
    (front.concat c).IsWellFormed :=
  ⟨h.name, h.nameTogether, h.opening,
    List.forall_mem_append.2 ⟨h.clauses, List.forall_mem_singleton.2 hc⟩⟩

end Beginning

/-- A clause of which all is well but the declaration. -/
structure Clause.IsFaulty (c : Clause) (fault : SyntaxFault) : Prop where
  parts : ∀ p ∈ c.parts, p.IsWellFormed
  declares : c.declaration ≠ []
  fault : Draft.splitDeclaration (String.ofList c.declaration) = .error fault
  semicolon : c.semicolon.char = ';'

/-- A clause that no semicolon has ended yet, with what is in front of it. -/
structure OpenClause where
  front : Beginning
  parts : List Part
deriving DecidableEq

namespace OpenClause

variable (k : OpenClause)

def tokens : List Token := k.front.tokens ++ k.parts.flatMap Part.tokens

structure IsWellFormed : Prop where
  front : k.front.IsWellFormed
  parts : ∀ p ∈ k.parts, p.IsWellFormed

def concat (p : Part) : OpenClause := { k with parts := k.parts ++ [p] }

def next (semicolon : Token) : OpenClause := ⟨k.front.concat ⟨k.parts, semicolon⟩, []⟩

variable {k}

theorem tokens_concat (p : Part) : (k.concat p).tokens = k.tokens ++ p.tokens := by
  simp [tokens, concat]

theorem tokens_next (semicolon : Token) : (k.next semicolon).tokens = k.tokens ++ [semicolon] := by
  simp [tokens, next, Beginning.tokens_concat, Clause.tokens]

theorem IsWellFormed.concat (h : k.IsWellFormed) {p : Part} (hp : p.IsWellFormed) :
    (k.concat p).IsWellFormed :=
  ⟨h.front, List.forall_mem_append.2 ⟨h.parts, List.forall_mem_singleton.2 hp⟩⟩

theorem IsWellFormed.next (h : k.IsWellFormed) {semicolon : Token}
    (hsemicolon : semicolon.char = ';')
    (hdeclares : Clause.declaration ⟨k.parts, semicolon⟩ = [] ∨
      Text.isIdentifier (Clause.name ⟨k.parts, semicolon⟩) = true ∧
        Text.isIdentifier (Clause.typeName ⟨k.parts, semicolon⟩) = true) :
    (k.next semicolon).IsWellFormed :=
  ⟨h.front.concat ⟨h.parts, hdeclares, hsemicolon⟩, by simp [OpenClause.next]⟩

end OpenClause

structure OpenBlock where
  clause : OpenClause
  opening : Token
  entries : List (List Token × Token)
deriving DecidableEq

namespace OpenBlock

variable (k : OpenBlock)

def tokens (entry : List Token) : List Token :=
  k.clause.tokens ++
    (k.opening :: (k.entries.flatMap fun (entry, separator) => entry ++ [separator]) ++ entry)

def draft (start? : Option Nat) : Draft :=
  .gathered (k.clause.parts.flatMap Part.declaration)
    (k.clause.parts.flatMap Part.elements ++
      k.entries.flatMap fun (entry, _) => (Element.ofTokens? entry).toList)
    (some ((start?.or (k.clause.parts.head?.map Part.line)).getD k.opening.line))

structure IsWellFormed : Prop where
  clause : k.clause.IsWellFormed
  opening : k.opening.char = '\x7b'
  entries : ∀ e ∈ k.entries, Token.IsEntry e.1 ∧ (e.2.char = ',' ∨ e.2.char = ';')

def file (entry : List Token) (separator : Token) : OpenBlock :=
  { k with entries := k.entries ++ [(entry, separator)] }

def close (entry : List Token) (closing : Token) : OpenClause :=
  k.clause.concat (.block k.opening k.entries entry closing)

variable {k} {b : Block} {entry : List Token} {n : Nesting} {t : Token}

theorem tokens_push (entry : List Token) (t : Token) :
    k.tokens (entry ++ [t]) = k.tokens entry ++ [t] := by
  simp [tokens]

theorem tokens_file (entry : List Token) (separator : Token) :
    (k.file entry separator).tokens [] = k.tokens entry ++ [separator] := by
  simp [tokens, file]

theorem tokens_close (entry : List Token) (closing : Token) :
    (k.close entry closing).tokens = k.tokens entry ++ [closing] := by
  simp [tokens, close, OpenClause.tokens_concat, Part.tokens]

theorem addElement_draft (hb : b.Holds entry n) (separator : Token) (start? : Option Nat) :
    (k.draft start?).addElement b = (k.file entry separator).draft start? := by
  rw [draft, hb.addElement]
  simp [draft, file]

theorem body_addElement_draft (hb : b.Holds entry n) (closing : Token) (name : String)
    (ended : Bool) (start? : Option Nat) :
    Scanner.body name ended ((k.draft start?).addElement b) =
      .withinClause name ended start? (k.close entry closing).parts := by
  rw [draft, hb.addElement, List.append_assoc]
  exact Scanner.body_gathered_block closing

theorem IsWellFormed.file (h : k.IsWellFormed) (hentry : Token.IsEntry entry)
    (ht : t.char = ',' ∨ t.char = ';') : (k.file entry t).IsWellFormed :=
  ⟨h.clause, h.opening,
    List.forall_mem_append.2 ⟨h.entries, List.forall_mem_singleton.2 ⟨hentry, ht⟩⟩⟩

theorem IsWellFormed.close (h : k.IsWellFormed) (hentry : Token.IsEntry entry)
    (ht : t.char = '\x7d') : (k.close entry t).IsWellFormed :=
  h.clause.concat ⟨h.opening, h.entries, hentry, ht⟩

end OpenBlock

theorem Draft.eq_of_toStatement_ofParts_error {start? : Option Nat} {parts : List Part} {line : Nat}
    {fault : SyntaxFault} (h : (ofParts start? parts).toStatement line = .error fault) :
    parts.flatMap Part.declaration ≠ [] ∧
      splitDeclaration (String.ofList (parts.flatMap Part.declaration)) = .error fault := by
  have hdeclaration : (ofParts start? parts).declaration =
      String.ofList (parts.flatMap Part.declaration) := rfl
  rw [toStatement, hdeclaration] at h
  split at h
  · cases h
  · rename_i hempty
    refine ⟨by simpa using hempty, ?_⟩
    cases hsplit : splitDeclaration (String.ofList (parts.flatMap Part.declaration)) with
    | error fault' =>
        rw [hsplit] at h
        rw [Except.error.inj h]
    | ok declared =>
        rw [hsplit] at h
        cases h

namespace Scanner

open Text (quoteAfter)

/-- The scanner has read these tokens: it is within the name, within a clause of the body, within a
block of it, or behind the body. The line last read plays no part. -/
inductive Stands : Scanner → Option Char → List Token → Prop where
  | inName {us : List Token} (hus : ∀ t ∈ us, t.IsPlain)
      (htogether : ∀ t ∈ us.tail, t.isSpaced = false) (line : Nat) :
      Stands { withinName us with lastLine := line } none us
  | inClause {k : OpenClause} (hk : k.IsWellFormed) (name : String) (ended : Bool)
      (start? : Option Nat) (line : Nat) :
      Stands { withinClause name ended start? k.parts with lastLine := line } none k.tokens
  | inBlock {k : OpenBlock} (hk : k.IsWellFormed) {b : Block} {entry : List Token} {n : Nesting}
      (hb : b.Holds entry n) (name : String) (ended : Bool) (start? : Option Nat) (line : Nat) :
      Stands { body name ended { k.draft start? with block? := some b } with lastLine := line }
        n.quote? (k.tokens entry)
  | closed {s : Scanner} (hs : s.phase = .closed) (before : List Token) : Stands s none before

variable {s next : Scanner} {t : Token} {before : List Token} {statement? : Option Statement}
  {fault : SyntaxFault} {name : String} {ended : Bool} {start? : Option Nat} {line : Nat}

theorem stands_initial : initial.Stands none [] :=
  .inName (List.forall_mem_nil _) (List.forall_mem_nil _) 0

theorem stands_of_preambleChar {us : List Token} (hus : ∀ t ∈ us, t.IsPlain)
    (htogether : ∀ t ∈ us.tail, t.isSpaced = false) (hl : Text.isLayout t.char = false)
    (h : preambleChar { withinName us with
        nameEnded := t.isSpaced && !us.isEmpty, lastLine := line } t.char = .ok next) :
    next.Stands (quoteAfter none t.char) (us ++ [t]) := by
  unfold preambleChar at h
  split at h
  · rename_i hopening
    have hclause : OpenClause.IsWellFormed ⟨⟨us, t, []⟩, []⟩ :=
      ⟨⟨hus, htogether, hopening, by simp⟩, by simp⟩
    have hstands := Stands.inClause hclause (String.ofList (Token.chars us))
      (t.isSpaced && !us.isEmpty) none line
    have htokens : OpenClause.tokens ⟨⟨us, t, []⟩, []⟩ = us ++ [t] := by
      simp [OpenClause.tokens, Beginning.tokens]
    rw [htokens] at hstands
    rw [hopening, ← Except.ok.inj h]
    exact hstands
  · cases h
  · cases h
  · cases h
  · cases h
  · rename_i hopening hclosing hsemicolon hsingle hdouble
    have ht : t.IsPlain := ⟨hl, hsemicolon, hopening, hclosing, hsingle, hdouble⟩
    split at h
    · cases h
    · rename_i hended
      have hunspaced : (t.isSpaced && !us.isEmpty) = false := by simpa using hended
      have htogether' : ∀ u ∈ (us ++ [t]).tail, u.isSpaced = false := by
        cases us with
        | nil => simp
        | cons u us =>
            refine List.forall_mem_append.2 ⟨htogether, List.forall_mem_singleton.2 ?_⟩
            simpa using hunspaced
      have hname : (String.ofList (Token.chars us)).push t.char =
          String.ofList (Token.chars (us ++ [t])) := by
        simp
      have hstands := Stands.inName
        (List.forall_mem_append.2 ⟨hus, List.forall_mem_singleton.2 ht⟩) htogether' line
      rw [withinName, ← hname] at hstands
      rw [← Except.ok.inj h, hunspaced, ht.quoteAfter_eq_none]
      exact hstands

theorem not_isOfDeclaration_of_preambleChar {c : Char} (h : s.preambleChar c = .error fault) :
    ¬fault.IsOfDeclaration := by
  unfold preambleChar at h
  grind [SyntaxFault.IsOfDeclaration]

section Clause

variable {k : OpenClause}

theorem draft_withinClause (name : String) (ended : Bool) (start? : Option Nat)
    (parts : List Part) : (withinClause name ended start? parts).draft = .ofParts start? parts :=
  rfl

theorem stands_of_semicolon (hk : k.IsWellFormed) (ht : t.char = ';')
    (h : ({ withinClause name ended start? k.parts with lastLine := line } : Scanner).bodyChar
      t.line ';' = .ok (next, statement?)) :
    next.Stands none (k.tokens ++ [t]) := by
  rw [← OpenClause.tokens_next]
  rw [bodyChar] at h
  split at h
  · rename_i hvoid
    obtain ⟨hdeclaration, helements⟩ := Draft.isVoid_ofParts.1 hvoid
    obtain ⟨rfl, rfl⟩ := Prod.mk.inj (Except.ok.inj h)
    rw [withinClause_of_void hdeclaration helements]
    exact .inClause (hk.next ht (.inl hdeclaration)) name ended _ line
  · cases hstatement : (Draft.ofParts start? k.parts).toStatement t.line with
    | error fault =>
        rw [draft_withinClause, hstatement] at h
        cases h
    | ok statement =>
        rw [draft_withinClause, hstatement] at h
        obtain ⟨rfl, rfl⟩ := Prod.mk.inj (Except.ok.inj h)
        have hdeclares := ((Draft.toStatement_ofParts (c := ⟨k.parts, t⟩)).1 hstatement).1
        exact .inClause (hk.next ht hdeclares) name ended none line

theorem stands_of_bodyChar (hk : k.IsWellFormed) (hl : Text.isLayout t.char = false)
    (h : ({ withinClause name ended start? k.parts with lastLine := line } : Scanner).bodyChar
      t.line t.char = .ok (next, statement?)) :
    next.Stands (quoteAfter none t.char) (k.tokens ++ [t]) := by
  by_cases hsemicolon : t.char = ';'
  · rw [hsemicolon] at h ⊢
    exact stands_of_semicolon hk hsemicolon h
  unfold bodyChar at h
  split at h
  · rename_i hchar
    exact absurd hchar hsemicolon
  · rename_i hopening
    obtain ⟨rfl, rfl⟩ := Prod.mk.inj (Except.ok.inj h)
    have hblock : OpenBlock.IsWellFormed ⟨k, t, []⟩ := ⟨hk, hopening, by simp⟩
    have hstands := Stands.inBlock hblock (.empty 0) name ended start? line
    have hdraft : OpenBlock.draft ⟨k, t, []⟩ start? =
        (Draft.ofParts start? k.parts).startAt t.line := by
      simp [OpenBlock.draft, Draft.ofParts, Draft.gathered, Draft.startAt]
    rw [hdraft] at hstands
    rw [hopening]
    exact hstands
  · rename_i hclosing
    split at h
    · obtain ⟨rfl, rfl⟩ := Prod.mk.inj (Except.ok.inj h)
      rw [hclosing]
      exact .closed rfl _
    · cases h
  · cases h
  · cases h
  · rename_i _ hopening hclosing hsingle hdouble
    obtain ⟨rfl, rfl⟩ := Prod.mk.inj (Except.ok.inj h)
    have ht : t.IsPlain := ⟨hl, hsemicolon, hopening, hclosing, hsingle, hdouble⟩
    have hpart : (Part.declared t).IsWellFormed := ht
    have hstands := Stands.inClause (hk.concat hpart) name ended start? line
    rw [OpenClause.tokens_concat, OpenClause.concat, withinClause, ← Draft.ofParts_declared]
      at hstands
    rw [ht.quoteAfter_eq_none]
    exact hstands

theorem eq_of_bodyChar_error (hfault : fault.IsOfDeclaration)
    (h : ({ withinClause name ended start? k.parts with lastLine := line } : Scanner).bodyChar
      t.line t.char = .error fault) :
    t.char = ';' ∧ k.parts.flatMap Part.declaration ≠ [] ∧
      Draft.splitDeclaration (String.ofList (k.parts.flatMap Part.declaration)) = .error fault := by
  unfold bodyChar at h
  split at h
  · rename_i hsemicolon
    refine ⟨hsemicolon, ?_⟩
    split at h
    · cases h
    · cases hstatement : (Draft.ofParts start? k.parts).toStatement t.line with
      | error fault' =>
          rw [draft_withinClause, hstatement] at h
          obtain rfl := Except.error.inj h
          exact Draft.eq_of_toStatement_ofParts_error hstatement
      | ok statement =>
          rw [draft_withinClause, hstatement] at h
          cases h
  · cases h
  · split at h
    · cases h
    · rw [← Except.error.inj h] at hfault
      exact hfault.elim
  · rw [← Except.error.inj h] at hfault
    exact hfault.elim
  · rw [← Except.error.inj h] at hfault
    exact hfault.elim
  · cases h

end Clause

section Block

variable {k : OpenBlock} {b : Block} {entry : List Token} {n : Nesting}

theorem stands_of_after? (hk : k.IsWellFormed) (hb : b.Holds entry n) {next : Nesting}
    (hnext : n.after? t.char = some next) :
    Stands
      { body name ended { k.draft start? with
          block? := some { b.push t.line t.char with depth := next.depth } } with lastLine := line }
      next.quote? (k.tokens entry ++ [t]) := by
  rw [← OpenBlock.tokens_push]
  exact .inBlock hk (hb.push hnext) name ended start? line

theorem stands_of_blockChar (hk : k.IsWellFormed) (hb : b.Holds entry n) (hn : n.quote? = none)
    (hl : Text.isLayout t.char = false) {d : Draft}
    (h : blockChar { k.draft start? with block? := some b } b t.line t.char = .ok d) :
    ({ body name ended d with lastLine := line } : Scanner).Stands (quoteAfter none t.char)
      (k.tokens entry ++ [t]) := by
  obtain ⟨depth, quote?⟩ := n
  obtain rfl : quote? = none := hn
  obtain rfl : b.depth = depth := hb.depth
  rcases cases_of_blockChar hl h with ⟨next, hnext⟩ | ⟨hdepth, hstop⟩
  · rw [blockChar_of_after? rfl rfl hnext] at h
    rw [← Except.ok.inj h, ← Nesting.quote?_of_after? hnext]
    exact stands_of_after? hk hb hnext
  rw [hdepth] at hb
  rcases or_assoc.2 hstop with hseparator | hclosing
  · have hquote : quoteAfter none t.char = none := by
      rcases hseparator with ht | ht <;> rw [ht] <;> rfl
    rw [blockChar_separator hdepth hseparator, OpenBlock.addElement_draft hb t] at h
    rw [hquote, ← Except.ok.inj h, ← OpenBlock.tokens_file]
    exact .inBlock (hk.file hb.nesting hseparator) hb.afterSeparator name ended start? line
  · have hstands := Stands.inClause (hk.close hb.nesting hclosing) name ended start? line
    rw [← OpenBlock.body_addElement_draft hb, OpenBlock.addElement_draft hb t,
      OpenBlock.tokens_close] at hstands
    rw [hclosing, blockChar_closing hdepth, OpenBlock.addElement_draft hb t] at h
    rw [hclosing, ← Except.ok.inj h]
    exact hstands

theorem not_isOfDeclaration_of_blockChar {d : Draft} {c : Char}
    (h : blockChar d b line c = .error fault) : ¬fault.IsOfDeclaration := by
  unfold blockChar at h
  grind [SyntaxFault.IsOfDeclaration]

end Block

theorem Stands.char {open? : Option Char} (hs : s.Stands open? before) (hopen : open? = none)
    (hl : Text.isLayout t.char = false)
    (h : (s.onLine t.line t.isSpaced).char t.line t.char = .ok (next, statement?)) :
    next.Stands (quoteAfter none t.char) (before ++ [t]) := by
  cases hs with
  | inName hus htogether line =>
      rw [onLine_lastLine, char_withinName] at h
      obtain ⟨next', hchar, h⟩ := bind_eq_ok_iff.1 h
      obtain ⟨rfl, rfl⟩ := Prod.mk.inj (Except.ok.inj h)
      exact stands_of_preambleChar hus htogether hl hchar
  | @inClause k hk name ended start? line =>
      rw [onLine_lastLine, withinClause, char_body rfl] at h
      exact stands_of_bodyChar hk hl h
  | @inBlock k hk b entry n hb name ended start? line =>
      rw [onLine_lastLine, onLine_body] at h
      cases hchar : blockChar { k.draft start? with block? := some b } b t.line t.char with
      | error fault =>
          simp only [Scanner.char, body, hchar] at h
          cases h
      | ok d =>
          have hread := char_setBlock (s := { body name ended (k.draft start?) with
            lastLine := t.line }) rfl hchar
          obtain ⟨rfl, rfl⟩ := Prod.mk.inj (Except.ok.inj (hread.symm.trans h))
          exact stands_of_blockChar hk hb hopen hl hchar
  | closed hphase before =>
      simp only [Scanner.char, phase_onLine, hphase] at h
      cases h

theorem Stands.quotedChar {q : Char} {open? : Option Char} (hs : s.Stands open? before)
    (hopen : open? = some q) (ht : t.char ≠ '\n') :
    ((s.onLine t.line t.isSpaced).quotedChar t.line t.char).Stands (quoteAfter (some q) t.char)
      (before ++ [t]) := by
  cases hs with
  | inName => cases hopen
  | inClause => cases hopen
  | @inBlock k hk b entry n hb name ended start? line =>
      have hnext : n.after? t.char = some { n with quote? := quoteAfter (some q) t.char } := by
        simp [Nesting.after?, hopen, ht]
      have hpush : { b.push t.line t.char with depth := n.depth } = b.push t.line t.char := by
        rw [← hb.depth]
        rfl
      rw [onLine_lastLine, onLine_body]
      have hstands : ({ body name ended { k.draft start? with
            block? := some { b.push t.line t.char with depth := n.depth } } with
            lastLine := t.line } : Scanner).Stands (quoteAfter (some q) t.char)
          (k.tokens entry ++ [t]) := stands_of_after? hk hb hnext
      rwa [hpush] at hstands
  | closed => cases hopen

theorem Stands.exists_of_error {open? : Option Char} (hs : s.Stands open? before)
    (hopen : open? = none) (hfault : fault.IsOfDeclaration)
    (h : (s.onLine t.line t.isSpaced).char t.line t.char = .error fault) :
    ∃ k : OpenClause, k.IsWellFormed ∧ before = k.tokens ∧ Clause.IsFaulty ⟨k.parts, t⟩ fault := by
  cases hs with
  | inName hus htogether line =>
      rw [onLine_lastLine, char_withinName] at h
      cases hchar : preambleChar { withinName before with
          nameEnded := t.isSpaced && !before.isEmpty, lastLine := t.line } t.char with
      | error fault' =>
          rw [hchar] at h
          obtain rfl := Except.error.inj h
          exact absurd hfault (not_isOfDeclaration_of_preambleChar hchar)
      | ok next =>
          rw [hchar] at h
          cases h
  | @inClause k hk name ended start? line =>
      rw [onLine_lastLine, withinClause, char_body rfl] at h
      obtain ⟨hsemicolon, hdeclares, hsplit⟩ := eq_of_bodyChar_error hfault h
      exact ⟨k, hk, rfl, hk.parts, hdeclares, hsplit, hsemicolon⟩
  | @inBlock k hk b entry n hb name ended start? line =>
      rw [onLine_lastLine, onLine_body] at h
      cases hchar : blockChar { k.draft start? with block? := some b } b t.line t.char with
      | error fault' =>
          simp only [Scanner.char, body, hchar] at h
          obtain rfl := Except.error.inj h
          exact absurd hfault (not_isOfDeclaration_of_blockChar hchar)
      | ok d =>
          simp only [Scanner.char, body, hchar] at h
          cases h
  | closed hphase before =>
      simp only [Scanner.char, phase_onLine, hphase] at h
      rw [← Except.error.inj h] at hfault
      exact hfault.elim

theorem Stands.exists_of_fault? {open? : Option Char} {ts : List Token}
    (hs : s.Stands open? before) (hfault : fault.IsOfDeclaration)
    (h : s.fault? open? ts = some (line, fault)) :
    ∃ (k : OpenClause) (t : Token) (rest : List Token), k.IsWellFormed ∧
      before ++ ts = k.tokens ++ t :: rest ∧ t.line = line ∧
      Clause.IsFaulty ⟨k.parts, t⟩ fault := by
  induction ts generalizing s open? before with
  | nil => cases h
  | cons t ts ih =>
      rw [fault?] at h
      cases open? with
      | some q =>
          rw [if_pos (by simp)] at h
          split at h
          · cases h
          · rename_i ht
            obtain ⟨k, u, rest, hk, htokens, hu⟩ := ih (hs.quotedChar rfl ht) h
            exact ⟨k, u, rest, hk, by simpa using htokens, hu⟩
      | none =>
          rw [if_neg (by simp)] at h
          split at h
          · cases h
          · rename_i hl
            rw [Bool.not_eq_true] at hl
            split at h
            · rename_i fault' hchar
              obtain ⟨rfl, rfl⟩ := Prod.mk.inj (Option.some.inj h)
              obtain ⟨k, hk, rfl, hfaulty⟩ := hs.exists_of_error rfl hfault hchar
              exact ⟨k, t, ts, hk, rfl, rfl, hfaulty⟩
            · rename_i next statement? hchar
              obtain ⟨k, u, rest, hk, htokens, hu⟩ := ih (hs.char rfl hl hchar) h
              exact ⟨k, u, rest, hk, by simpa using htokens, hu⟩

end Scanner

theorem Part.exists_tokens_eq_cons (p : Part) :
    ∃ t ts, p.tokens = t :: ts ∧ t.line = p.line := by
  cases p with
  | declared t => exact ⟨t, [], rfl, rfl⟩
  | block opening entries last closing => exact ⟨opening, _, rfl, rfl⟩

/-- A clause that declares something starts on the line of its first token, at the latest on that of
its semicolon. -/
theorem Clause.exists_line_le {c : Clause} (hdeclares : c.declaration ≠ [])
    (hlines : c.tokens.Pairwise fun t u => t.line ≤ u.line) :
    ∃ start, c.line? = some start ∧ start ≤ c.semicolon.line ∧
      (start = c.semicolon.line ↔ ∀ t ∈ c.tokens, t.line = start) := by
  obtain ⟨parts, semicolon⟩ := c
  cases parts with
  | nil => exact absurd rfl hdeclares
  | cons p parts =>
      obtain ⟨first, more, hp, hfirst⟩ := p.exists_tokens_eq_cons
      have htokens : Clause.tokens ⟨p :: parts, semicolon⟩ =
          first :: (more ++ parts.flatMap Part.tokens) ++ [semicolon] := by
        simp [Clause.tokens, hp]
      rw [htokens] at hlines ⊢
      rw [List.pairwise_append] at hlines
      obtain ⟨hbefore, -, hlast⟩ := hlines
      have hle : ∀ t ∈ first :: (more ++ parts.flatMap Part.tokens), t.line ≤ semicolon.line :=
        fun t ht => hlast t ht semicolon (by simp)
      refine ⟨p.line, rfl, hfirst ▸ hle first (by simp), ?_⟩
      constructor
      · intro hsame t ht
        rcases List.mem_append.1 ht with ht | ht
        · have hupper := hle t ht
          rcases List.mem_cons.1 ht with rfl | ht
          · exact hfirst
          · have hlower := (List.pairwise_cons.1 hbefore).1 t ht
            simp only at hsame
            omega
        · rw [List.mem_singleton.1 ht]
          exact hsame.symm
      · intro hall
        exact (hall semicolon (by simp)).symm

namespace Definition

/-- A text that is refused for a declaration is well formed up to the clause of this declaration.
The error names the line of the semicolon that ends the clause. The clause starts on this line or
before it, and on this line only if all of its tokens stand there. -/
theorem line_of_declarationFault {label text : String} {e : SyntaxError}
    (h : ofText label text = .error e) (he : e.fault.IsOfDeclaration) :
    e.entity = label ∧ ∃ (front : Beginning) (c : Clause) (rest : List Token) (start : Nat),
      front.IsWellFormed ∧ c.IsFaulty e.fault ∧
      Token.ofText text = front.tokens ++ (c.tokens ++ rest) ∧
      e.line = c.semicolon.line ∧ c.line? = some start ∧ start ≤ e.line ∧
      (start = e.line ↔ ∀ t ∈ c.tokens, t.line = start) := by
  obtain ⟨hentity, hfault⟩ := (ofText_eq_error_iff_fault he).1 h
  obtain ⟨k, t, rest, hk, htokens, hline, hfaulty⟩ :=
    Scanner.stands_initial.exists_of_fault? he hfault
  have hsplit : Token.ofText text =
      k.front.tokens ++ (Clause.tokens ⟨k.parts, t⟩ ++ rest) := by
    rw [List.nil_append] at htokens
    rw [htokens]
    simp [OpenClause.tokens, Clause.tokens]
  have hlines : (Token.ofText text).Pairwise fun t u => t.line ≤ u.line :=
    (Token.pairwise_line_scan .uncovered 1 false _).1
  rw [hsplit, List.pairwise_append, List.pairwise_append] at hlines
  obtain ⟨start, hstart, hle, hsame⟩ := Clause.exists_line_le hfaulty.declares hlines.2.1.1
  refine ⟨hentity, k.front, ⟨k.parts, t⟩, rest, start, hk.front, hfaulty, hsplit, hline.symm,
    hstart, ?_, ?_⟩
  · rw [← hline]
    exact hle
  · rw [← hline]
    exact hsame

theorem ofText_lateSemicolon :
    ofText "E" "E \x7b\nfoo\n;\n\x7d" = .error ⟨"E", 3, .untypedDeclaration "foo"⟩ := by
  decide +kernel

theorem line_of_declarationFault_lateSemicolon :
    ofText "E" "E \x7b\nfoo\n;\n\x7d" = .error ⟨"E", 3, .untypedDeclaration "foo"⟩ ∧
      ∃ (front : Beginning) (c : Clause) (rest : List Token) (start : Nat),
        Token.ofText "E \x7b\nfoo\n;\n\x7d" = front.tokens ++ (c.tokens ++ rest) ∧
        c.IsFaulty (.untypedDeclaration "foo") ∧ 3 = c.semicolon.line ∧
        c.line? = some start ∧ start ≤ 3 := by
  obtain ⟨-, front, c, rest, start, -, hfaulty, htokens, hline, hstart, hle, -⟩ :=
    line_of_declarationFault ofText_lateSemicolon trivial
  exact ⟨ofText_lateSemicolon, front, c, rest, start, htokens, hfaulty, hline, hstart, hle⟩

def lateSemicolonFront : Beginning := ⟨[⟨'E', 1, false⟩], ⟨'\x7b', 1, true⟩, []⟩

def lateSemicolon : Clause where
  parts := [.declared ⟨'f', 2, true⟩, .declared ⟨'o', 2, false⟩, .declared ⟨'o', 2, false⟩]
  semicolon := ⟨';', 3, true⟩

/-- The error need not name the line on which the clause starts. -/
theorem not_forall_line_of_declarationFault :
    ¬∀ (label text : String) (e : SyntaxError) (front : Beginning) (c : Clause)
      (rest : List Token), ofText label text = .error e → front.IsWellFormed →
        c.IsFaulty e.fault → Token.ofText text = front.tokens ++ (c.tokens ++ rest) →
        c.line? = some e.line := by
  intro h
  have hfront : lateSemicolonFront.IsWellFormed :=
    ⟨by decide, by decide, by decide, by decide⟩
  have hfaulty : lateSemicolon.IsFaulty (.untypedDeclaration "foo") :=
    ⟨by decide, by decide, by decide +kernel, by decide⟩
  have hline := h "E" _ _ lateSemicolonFront lateSemicolon [⟨'\x7d', 4, true⟩] ofText_lateSemicolon
    hfront hfaulty (by decide +kernel)
  exact absurd hline (by decide)

end Definition

end EntityModel
