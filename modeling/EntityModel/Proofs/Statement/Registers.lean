import EntityModel.Proofs.Statement.Phases

/-!
# Registers

The scanner as a machine with a register for each thing that it remembers. Whether a block is open,
the element that is being read and the parentheses that are open in it are registers of their own:
nothing ties them together, and each character writes to some and leaves the others as they are. The
machine reads what the scanner reads, and after each line its registers hold what the scanner
remembers. So the registers are coherent, whatever lines have been read.
-/

namespace EntityModel

structure Registers where
  phase : Phase
  name : String
  nameEnded : Bool
  declaration : String
  annotations : List Element
  tags : List Element
  startLine? : Option Nat
  element : String
  elementLine : Nat
  depth : Nat
  inBlock : Bool
  lastLine : Nat
deriving Repr, DecidableEq

namespace Registers

def initial : Registers := ⟨.preamble, "", false, "", [], [], none, "", 0, 0, false, 0⟩

def draft (r : Registers) : Draft := ⟨r.declaration, r.annotations, r.tags, r.startLine?, none⟩

def isVoid (r : Registers) : Bool :=
  r.declaration.isEmpty && r.annotations.isEmpty && r.tags.isEmpty && r.element.isEmpty &&
    !r.inBlock

def startAt (r : Registers) (line : Nat) : Registers :=
  { r with startLine? := some (r.startLine?.getD line) }

def pushElement (r : Registers) (line : Nat) (c : Char) : Registers :=
  { r with
    elementLine := if r.element.isEmpty then line else r.elementLine
    element := r.element.push c }

def fileElement (r : Registers) : Registers :=
  if r.element.isEmpty then r
  else if Element.isTagText r.element then
    { r with tags := r.tags ++ [⟨r.element, r.elementLine⟩], element := "" }
  else { r with annotations := r.annotations ++ [⟨r.element, r.elementLine⟩], element := "" }

def clear (r : Registers) : Registers :=
  { initial with
    phase := r.phase, name := r.name, nameEnded := r.nameEnded, lastLine := r.lastLine }

def endName (r : Registers) : Registers :=
  if r.phase = .preamble && !r.name.isEmpty then { r with nameEnded := true } else r

def preambleChar (r : Registers) (c : Char) : Except SyntaxFault Registers :=
  match c with
  | '\x7b' => .ok { r with phase := .body }
  | '\x7d' | ';' => .error (.unexpected c)
  | '\'' => .error .unexpectedSingleQuote
  | '"' => .error .unexpectedDoubleQuote
  | _ => if r.nameEnded then .error (.afterName c r.name) else .ok { r with name := r.name.push c }

def bodyChar (r : Registers) (line : Nat) (c : Char) :
    Except SyntaxFault (Registers × Option Statement) :=
  match c with
  | ';' =>
      if r.isVoid then .ok (r, none)
      else do
        let statement ← r.draft.toStatement line
        return (r.clear, some statement)
  | '\x7b' => .ok ({ r.startAt line with inBlock := true }, none)
  | '\x7d' =>
      if r.isVoid then .ok ({ r with phase := .closed }, none) else .error .unfinishedStatement
  | '\'' => .error .unexpectedSingleQuote
  | '"' => .error .unexpectedDoubleQuote
  | _ => .ok ({ r.startAt line with declaration := r.declaration.push c }, none)

def blockChar (r : Registers) (line : Nat) (c : Char) : Except SyntaxFault Registers :=
  match c with
  | '(' => .ok ({ r with depth := r.depth + 1 }.pushElement line c)
  | ')' =>
      if r.depth = 0 then .error (.unexpected c)
      else .ok ({ r with depth := r.depth - 1 }.pushElement line c)
  | ',' => .ok (if r.depth = 0 then r.fileElement else r.pushElement line c)
  | ';' => if r.depth = 0 then .ok r.fileElement else .error .semicolonInParameters
  | '\x7b' => .error (.unexpected c)
  | '\x7d' =>
      if r.depth = 0 then .ok { r.fileElement with inBlock := false }
      else .error .unclosedParameters
  | _ => .ok (r.pushElement line c)

def char (r : Registers) (line : Nat) (c : Char) :
    Except SyntaxFault (Registers × Option Statement) :=
  match r.phase with
  | .preamble => do return (← r.preambleChar c, none)
  | .closed => .error (.afterBody c)
  | .body => if r.inBlock then do return (← r.blockChar line c, none) else r.bodyChar line c

def chars (r : Registers) (line : Nat) (open? : Option Char) :
    List Char → Except SyntaxFault (Registers × List Statement)
  | [] => if open?.isSome then .error .unterminatedQuote else .ok (r.endName, [])
  | c :: rest =>
      if open?.isSome then (r.pushElement line c).chars line (Text.quoteAfter open? c) rest
      else if Text.isLayout c then r.endName.chars line none rest
      else if c = '/' && rest.head? = some '/' then .ok (r.endName, [])
      else do
        let (next, statement?) ← r.char line c
        let (last, statements) ← next.chars line (Text.quoteAfter none c) rest
        return (last, statement?.toList ++ statements)

def step (r : Registers) (label : String) (line : Nat) (cs : List Char) :
    Except SyntaxError (Registers × List Statement) :=
  match { r with lastLine := line }.chars line none (Scanner.withoutByteOrderMark line cs) with
  | .ok result => .ok result
  | .error fault => .error ⟨label, line, fault⟩

end Registers

/-- Two results: the same fault, or values that go together. -/
inductive SameOutcome {ε α β : Type} (R : α → β → Prop) : Except ε α → Except ε β → Prop where
  | error (e : ε) : SameOutcome R (.error e) (.error e)
  | ok {a : α} {b : β} (h : R a b) : SameOutcome R (.ok a) (.ok b)

theorem SameOutcome.bind {ε α β γ δ : Type} {R : α → β → Prop} {S : γ → δ → Prop}
    {x : Except ε α} {y : Except ε β} {f : α → Except ε γ} {g : β → Except ε δ}
    (h : SameOutcome R x y) (hnext : ∀ a b, y = .ok b → R a b → SameOutcome S (f a) (g b)) :
    SameOutcome S (x >>= f) (y >>= g) := by
  cases h with
  | error e => exact .error e
  | ok hab => exact hnext _ _ rfl hab

/-- The registers that hold what the scanner remembers. The line of the element is given apart: it
says nothing before the element has been begun. -/
def Scanner.registers (s : Scanner) (elementLine : Nat) : Registers where
  phase := s.phase
  name := s.name
  nameEnded := s.nameEnded
  declaration := s.draft.declaration
  annotations := s.draft.annotations
  tags := s.draft.tags
  startLine? := s.draft.startLine?
  element := (s.draft.block?.map Block.element).getD ""
  elementLine := elementLine
  depth := (s.draft.block?.map Block.depth).getD 0
  inBlock := s.inBlock
  lastLine := s.lastLine

namespace Registers

structure Represents (r : Registers) (s : Scanner) : Prop where
  registers : r = s.registers r.elementLine
  elementLine : ∀ b ∈ s.draft.block?, b.element ≠ "" → r.elementLine = b.elementLine

theorem Represents.exists_registers {r : Registers} {s : Scanner} (h : r.Represents s) :
    ∃ l, r = s.registers l := ⟨_, h.registers⟩

def RepresentsWith {α : Type} (p : Registers × α) (q : Scanner × α) : Prop :=
  p.1.Represents q.1 ∧ p.2 = q.2

variable {r : Registers} {s : Scanner} {line : Nat} {c : Char}

theorem isVoid_registers (hb : s.draft.block? = none) (l : Nat) :
    (s.registers l).isVoid = s.draft.isVoid := by
  simp [isVoid, Draft.isVoid, Scanner.registers, Scanner.inBlock, hb]

theorem draft_registers (hb : s.draft.block? = none) (l : Nat) :
    (s.registers l).draft = s.draft := by
  simp [draft, Scanner.registers, ← hb]

theorem sameOutcome_preambleChar (h : r.Represents s) :
    SameOutcome Represents (r.preambleChar c) (s.preambleChar c) := by
  obtain ⟨l, rfl⟩ := h.exists_registers
  have hended : (s.registers l).nameEnded = s.nameEnded := rfl
  unfold preambleChar
  split
  · exact .ok ⟨rfl, h.elementLine⟩
  · exact .error _
  · exact .error _
  · exact .error _
  · exact .error _
  · -- The equation of the scanner asks for what the cases before have excluded.
    rw [Scanner.preambleChar, hended]
    · split
      · exact .error _
      · exact .ok ⟨rfl, h.elementLine⟩
    all_goals assumption

theorem sameOutcome_bodyChar (h : r.Represents s) (hb : s.draft.block? = none) :
    SameOutcome RepresentsWith (r.bodyChar line c) (s.bodyChar line c) := by
  obtain ⟨l, rfl⟩ := h.exists_registers
  unfold bodyChar
  rw [isVoid_registers hb, draft_registers hb]
  split
  · rw [Scanner.bodyChar]
    split
    · exact .ok ⟨h, rfl⟩
    · cases s.draft.toStatement line with
      | error fault => exact .error fault
      | ok statement => exact .ok ⟨⟨rfl, by simp [Draft.empty]⟩, rfl⟩
  · refine .ok ⟨⟨?_, by simp [Draft.openBlock]⟩, rfl⟩
    simp [Scanner.registers, startAt, Draft.openBlock, Draft.startAt, Scanner.inBlock, hb]
  · rw [Scanner.bodyChar]
    split
    · exact .ok ⟨⟨rfl, h.elementLine⟩, rfl⟩
    · exact .error _
  · exact .error _
  · exact .error _
  · rw [Scanner.bodyChar]
    · exact .ok ⟨⟨rfl, h.elementLine⟩, rfl⟩
    all_goals assumption

section Block

variable {b : Block}

theorem represents_pushElement (h : r.Represents s) (hb : s.draft.block? = some b) (line : Nat)
    (c : Char) (depth : Nat) :
    ({ r with depth := depth }.pushElement line c).Represents
      { s with draft :=
        { s.draft with block? := some { b.push line c with depth := depth } } } := by
  obtain ⟨l, rfl⟩ := h.exists_registers
  have hline : b.element ≠ "" → l = b.elementLine := h.elementLine b hb
  refine ⟨?_, fun b' hb' _ => ?_⟩
  · simp [Scanner.registers, pushElement, Scanner.inBlock, Block.push, hb]
  · obtain rfl := Option.some.inj hb'
    simp only [pushElement, Scanner.registers, hb, Block.push, Option.map_some, Option.getD_some]
    cases hempty : b.element.isEmpty with
    | true => rfl
    | false => exact hline (by simpa using hempty)

theorem represents_push (h : r.Represents s) (hb : s.draft.block? = some b) (line : Nat) (c : Char) :
    (r.pushElement line c).Represents
      { s with draft := { s.draft with block? := some (b.push line c) } } := by
  have hsame : ({ b.push line c with depth := r.depth } : Block) = b.push line c := by
    rw [h.registers]
    simp [Scanner.registers, hb, Block.push]
  exact hsame ▸ represents_pushElement h hb line c r.depth

theorem represents_fileElement (h : r.Represents s) (hb : s.draft.block? = some b) :
    r.fileElement.Represents
      { s with draft :=
        { s.draft.addElement b with block? := some { b with element := "" } } } := by
  obtain ⟨l, rfl⟩ := h.exists_registers
  have hline : b.element ≠ "" → l = b.elementLine := h.elementLine b hb
  have helement : (s.registers l).element = b.element := by simp [Scanner.registers, hb]
  refine ⟨?_, by simp⟩
  rw [fileElement, helement, Draft.addElement]
  cases hempty : b.element.isEmpty with
  | true =>
      rw [String.isEmpty_iff] at hempty
      simp [Scanner.registers, Scanner.inBlock, hb, hempty]
  | false =>
      have hl : l = b.elementLine := hline (by simpa using hempty)
      cases Element.isTagText b.element <;>
        simp [Scanner.registers, Scanner.inBlock, hb, hl]

theorem Represents.closeBlock {d : Draft} (hd : b.depth = 0)
    (h : r.Represents { s with draft := { d with block? := some { b with element := "" } } }) :
    { r with inBlock := false }.Represents { s with draft := { d with block? := none } } := by
  obtain ⟨l, rfl⟩ := h.exists_registers
  exact ⟨by simp [Scanner.registers, Scanner.inBlock, hd], by simp⟩

theorem sameOutcome_blockChar (h : r.Represents s) (hb : s.draft.block? = some b) :
    SameOutcome (fun r d => r.Represents { s with draft := d }) (r.blockChar line c)
      (Scanner.blockChar s.draft b line c) := by
  have hdepth : r.depth = b.depth := by
    rw [h.registers]
    simp [Scanner.registers, hb]
  have hfile := represents_fileElement h hb
  unfold blockChar
  rw [hdepth]
  split
  · exact .ok (represents_pushElement h hb _ _ _)
  · rw [Scanner.blockChar]
    split
    · exact .error _
    · exact .ok (represents_pushElement h hb _ _ _)
  · rw [Scanner.blockChar]
    split
    · exact .ok hfile
    · exact .ok (represents_push h hb _ _)
  · rw [Scanner.blockChar]
    split
    · exact .ok hfile
    · exact .error _
  · exact .error _
  · rw [Scanner.blockChar]
    split
    · rename_i hzero
      exact .ok (hfile.closeBlock hzero)
    · exact .error _
  · rw [Scanner.blockChar]
    · exact .ok (represents_push h hb _ _)
    all_goals assumption

end Block

theorem Represents.phase_eq (h : r.Represents s) : r.phase = s.phase := by
  rw [h.registers]
  rfl

theorem Represents.inBlock_eq (h : r.Represents s) : r.inBlock = s.inBlock := by
  rw [h.registers]
  rfl

theorem sameOutcome_char (h : r.Represents s) (line : Nat) (c : Char) :
    SameOutcome RepresentsWith (r.char line c) (s.char line c) := by
  rw [char, Scanner.char, h.phase_eq, h.inBlock_eq]
  cases hphase : s.phase with
  | preamble => exact (sameOutcome_preambleChar h).bind fun _ _ _ hnext => .ok ⟨hnext, rfl⟩
  | closed => exact .error _
  | body =>
      cases hb : s.draft.block? with
      | none =>
          rw [Scanner.inBlock, hb]
          exact sameOutcome_bodyChar h hb
      | some b =>
          rw [Scanner.inBlock, hb]
          exact (sameOutcome_blockChar h hb).bind fun _ _ _ hnext => .ok ⟨hphase ▸ hnext, rfl⟩

theorem inBlock_of_char {next : Scanner} {statement? : Option Statement}
    (hl : Text.isLayout c = false) (h : s.char line c = .ok (next, statement?))
    (hquote : (Text.quoteAfter none c).isSome = true) : next.inBlock = true := by
  have hreads := Scanner.reads_char hl h
  rw [Scanner.inBlock]
  generalize next.draft = d at hreads ⊢
  generalize Text.quoteAfter none c = open? at hreads hquote
  cases hreads with
  | kept | declared | opened | ended | filed => cases hquote
  | extended => rfl

theorem represents_quotedChar (h : r.Represents s) (hs : s.inBlock = true) (line : Nat) (c : Char) :
    (r.pushElement line c).Represents (s.quotedChar line c) := by
  obtain ⟨b, hb⟩ := Option.isSome_iff_exists.1 hs
  rw [Scanner.quotedChar, hb]
  exact represents_push h hb line c

theorem Represents.endName (h : r.Represents s) : r.endName.Represents s.endName := by
  obtain ⟨l, rfl⟩ := h.exists_registers
  have hname : (s.registers l).name = s.name := rfl
  rw [Registers.endName, Scanner.endName, h.phase_eq, hname]
  split
  · exact ⟨rfl, h.elementLine⟩
  · exact h

theorem sameOutcome_chars (h : r.Represents s) {open? : Option Char}
    (hopen : open?.isSome = true → s.inBlock = true) (line : Nat) (cs : List Char) :
    SameOutcome RepresentsWith (r.chars line open? cs) (s.chars line open? cs) := by
  induction cs generalizing r s open? with
  | nil =>
      rw [chars, Scanner.chars]
      split
      · exact .error _
      · exact .ok ⟨h.endName, rfl⟩
  | cons c rest ih =>
      rw [chars, Scanner.chars]
      split
      · rename_i hquoted
        have hs := hopen hquoted
        apply ih (represents_quotedChar h hs line c)
        intro _
        rw [← hs]
        simp [Scanner.inBlock, Scanner.quotedChar]
      · split
        · exact ih h.endName (by simp)
        · rename_i hl
          rw [Bool.not_eq_true] at hl
          split
          · exact .ok ⟨h.endName, rfl⟩
          · apply (sameOutcome_char h line c).bind
            rintro ⟨r', statement?⟩ ⟨s', _⟩ hread ⟨hnext, rfl⟩
            apply (ih hnext (inBlock_of_char hl hread)).bind
            rintro ⟨r'', more⟩ ⟨s'', _⟩ - ⟨hlast, rfl⟩
            exact .ok ⟨hlast, rfl⟩

theorem sameOutcome_step (h : r.Represents s) (label : String) (line : Nat) (cs : List Char) :
    SameOutcome RepresentsWith (r.step label line cs) (s.step label line cs) := by
  have hmarked : { r with lastLine := line }.Represents { s with lastLine := line } := by
    obtain ⟨l, rfl⟩ := h.exists_registers
    exact ⟨rfl, h.elementLine⟩
  have hclosed : (none : Option Char).isSome = true →
      ({ s with lastLine := line } : Scanner).inBlock = true := nofun
  have hchars := sameOutcome_chars hmarked hclosed line (Scanner.withoutByteOrderMark line cs)
  rw [step, Scanner.step]
  generalize chars _ _ none _ = x at hchars ⊢
  generalize Scanner.chars _ _ none _ = y at hchars ⊢
  cases hchars with
  | error fault => exact .error _
  | ok hnext => exact .ok hnext

open NumberedLine (readAll)

theorem sameOutcome_readAll (h : r.Represents s) (lines : List NumberedLine) :
    SameOutcome RepresentsWith (readAll step r lines) (readAll Scanner.step s lines) := by
  induction lines generalizing r s with
  | nil => exact .ok ⟨h, rfl⟩
  | cons l rest ih =>
      apply (sameOutcome_step h l.label l.number l.text).bind
      rintro ⟨r', first⟩ ⟨s', _⟩ - ⟨hnext, rfl⟩
      apply (ih hnext).bind
      rintro ⟨r'', more⟩ ⟨s'', _⟩ - ⟨hlast, rfl⟩
      exact .ok ⟨hlast, rfl⟩

theorem represents_initial : initial.Represents .initial := ⟨rfl, nofun⟩

/-- Registers that are written one by one, and that go together all the same. -/
structure IsCoherent (r : Registers) : Prop where
  body_of_inBlock : r.inBlock = true → r.phase = .body
  outside : r.inBlock = false → r.element = "" ∧ r.depth = 0
  preamble : r.phase = .preamble → r.draft = .empty ∧ r.element = "" ∧ r.inBlock = false
  closed : r.phase = .closed →
    r.declaration = "" ∧ r.annotations = [] ∧ r.tags = [] ∧ r.element = ""

theorem Represents.isCoherent (h : r.Represents s) (hs : s.IsCoherent) : r.IsCoherent := by
  obtain ⟨l, rfl⟩ := h.exists_registers
  have houtside (hnone : s.draft.block? = none) :
      (s.registers l).element = "" ∧ (s.registers l).depth = 0 := by
    simp [Scanner.registers, hnone]
  refine ⟨hs.body_of_inBlock, ?_, ?_, ?_⟩
  · intro hblock
    exact houtside (Scanner.inBlock_eq_false_iff.1 hblock)
  · intro hphase
    have hempty : s.draft = .empty := hs.preamble hphase
    have hnone : s.draft.block? = none := by
      rw [hempty]
      rfl
    exact ⟨(draft_registers hnone l).trans hempty, (houtside hnone).1,
      Scanner.inBlock_eq_false_iff.2 hnone⟩
  · intro hphase
    have hvoid : s.draft.isVoid = true := hs.closed hphase
    simp only [Draft.isVoid, Bool.and_eq_true, String.isEmpty_iff, List.isEmpty_iff,
      Option.isNone_iff_eq_none] at hvoid
    obtain ⟨⟨⟨hdeclaration, hannotations⟩, htags⟩, hnone⟩ := hvoid
    exact ⟨hdeclaration, hannotations, htags, (houtside hnone).1⟩

/-- Whatever lines have been read, the registers are coherent. From then on the phases only move
forward, a name that has been told stays, and after the end a line is read if and only if it is
idle; then it ends no statement and changes nothing. -/
theorem invariants_of_readAll {lines : List NumberedLine} {s : Scanner}
    {statements : List Statement}
    (h : readAll Scanner.step .initial lines = .ok (s, statements)) :
    (∃ r, readAll step initial lines = .ok (r, statements) ∧ r.Represents s ∧ r.IsCoherent) ∧
      (∀ more last ended, readAll Scanner.step s more = .ok (last, ended) →
        s.phase.rank ≤ last.phase.rank ∧
          ∀ name, s.declaredName? = some name → last.declaredName? = some name) ∧
      (s.phase = .closed → ∀ label line cs next ended,
        s.step label line cs = .ok (next, ended) ↔
          Text.IsIdle (Scanner.withoutByteOrderMark line cs) ∧
            next = { s with lastLine := line } ∧ ended = []) := by
  refine ⟨?_, ?_, fun hclosed label line cs next ended => Scanner.step_of_closed hclosed⟩
  · have hsame := sameOutcome_readAll represents_initial lines
    rw [h] at hsame
    generalize hread : readAll step initial lines = x at hsame ⊢
    cases hsame with
    | @ok p _ hp =>
        obtain ⟨r, _⟩ := p
        obtain ⟨hrepresents, rfl⟩ := hp
        exact ⟨r, rfl, hrepresents, hrepresents.isCoherent (Scanner.isCoherent_of_readAll h)⟩
  · intro more last ended hmore
    refine ⟨Scanner.rank_le_of_readAll hmore, fun name hname => ?_⟩
    exact ((Scanner.hasName_of_readAll h hname).readAll hmore).declaredName?_eq

def bookLines : List NumberedLine :=
  [⟨"Book", 1, "\uFEFFBook \x7b".toList⟩, ⟨"Book", 2, " id: long \x7b Id \x7d;".toList⟩,
    ⟨"Book", 3, "\x7d // end".toList⟩]

def bookScanner : Scanner := ⟨.closed, "Book", true, .empty, 3⟩

theorem invariants_of_readAll_book :
    ∃ statements, readAll Scanner.step .initial bookLines = .ok (bookScanner, statements) ∧
      (∃ r, readAll step initial bookLines = .ok (r, statements) ∧ r.Represents bookScanner ∧
        r.IsCoherent) ∧
      (∃ last, readAll Scanner.step bookScanner [⟨"Book", 4, []⟩] = .ok (last, []) ∧
        last.declaredName? = some "Book") ∧
      ∀ label line cs next ended, bookScanner.step label line cs = .ok (next, ended) ↔
        Text.IsIdle (Scanner.withoutByteOrderMark line cs) ∧
          next = { bookScanner with lastLine := line } ∧ ended = [] := by
  have hread : readAll Scanner.step .initial bookLines =
      .ok (bookScanner, [⟨"id", "long", [⟨"Id", 2⟩], [], 2⟩]) := by decide +kernel
  have hmore : readAll Scanner.step bookScanner [⟨"Book", 4, []⟩] =
      .ok ({ bookScanner with lastLine := 4 }, []) := by decide +kernel
  obtain ⟨hregisters, hlater, hclosed⟩ := invariants_of_readAll hread
  exact ⟨_, hread, hregisters, ⟨_, hmore, (hlater _ _ _ hmore).2 "Book" rfl⟩, hclosed rfl⟩

end Registers

end EntityModel
