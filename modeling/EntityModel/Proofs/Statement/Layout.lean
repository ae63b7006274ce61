import EntityModel.Proofs.Statement.RunningText
import Mathlib.Control.Monad.Basic

/-!
# Layout within the body

Outside quotes and comments, layout in the body tells only on which lines things stand: another
character of it leaves the definition as it is but for its lines, and the lines too unless it is a
line feed.
-/

namespace EntityModel

/-- Where a place of a text lies: whether the brace that opens the body is behind it, and what it is
covered by. -/
structure Place where
  inBody : Bool
  cover : Cover
deriving Repr, DecidableEq

namespace Place

def start : Place := ⟨false, .uncovered⟩

def next (p : Place) (c : Char) (following? : Option Char) : Place :=
  match p.cover with
  | .quoted q => { p with cover := .ofQuote? (Text.quoteAfter (some q) c) }
  | .comment => { p with cover := if c = '\n' then .uncovered else .comment }
  | .uncovered =>
      if c = '/' ∧ following? = some '/' then { p with cover := .comment }
      else ⟨p.inBody || c == '\x7b', .ofQuote? (Text.quoteAfter none c)⟩

theorem next_layout {inBody : Bool} {c : Char} (hl : Text.isLayout c = true)
    (following? : Option Char) :
    (⟨inBody, .uncovered⟩ : Place).next c following? = ⟨inBody, .uncovered⟩ := by
  have hne {c' : Char} (h : Text.isLayout c' = false) : c ≠ c' := by
    intro hc
    rw [hc, h] at hl
    cases hl
  have hslash : c ≠ '/' := hne (by decide)
  have hbrace : c ≠ '\x7b' := hne (by decide)
  have hsingle : c ≠ '\'' := hne (by decide)
  have hdouble : c ≠ '"' := hne (by decide)
  have hquote : Text.quoteAfter none c = none := by
    simp [Text.quoteAfter, Text.isQuote, hsingle, hdouble]
  simp [next, hslash, hbrace, hquote, Cover.ofQuote?]

def between (p : Place) : List Char → List Char → Place
  | [], _ => p
  | c :: before, after => (p.next c (before ++ after).head?).between before after

end Place

namespace Scanner

variable {s next : Scanner} {line : Nat} {c : Char} {statement? : Option Statement}

theorem endName_of_phase_ne (h : s.phase ≠ .preamble) : s.endName = s := by
  simp [endName, h]

theorem phase_char (h : s.char line c = .ok (next, statement?)) (hnext : next.phase = .preamble) :
    s.phase = .preamble ∧ c ≠ '\x7b' := by
  unfold char preambleChar bodyChar at h
  simp only [bind, Except.bind, pure, Except.pure] at h
  grind

end Scanner

namespace Cursor

variable {label : String} {k next : Cursor} {p : Place} {c : Char} {following? : Option Char}
  {statements : List Statement}

structure IsAt (k : Cursor) (p : Place) : Prop where
  cover_eq : k.cover = p.cover
  inBody : p.inBody = true → k.scanner.phase ≠ .preamble

theorem isAt_start : start.IsAt Place.start := ⟨rfl, by simp [Place.start]⟩

theorem IsAt.reads (hk : k.IsAt p) (h : k.Reads c following? next statements) :
    next.IsAt (p.next c following?) := by
  obtain ⟨inBody, cover⟩ := p
  obtain ⟨rfl, hbody⟩ := hk
  have hendName : k.marked.endName.phase = k.scanner.phase := Scanner.phase_endName _
  cases h with
  | quoted hcover hc =>
      rw [hcover]
      exact ⟨rfl, hbody⟩
  | skipped hcover hc =>
      rw [hcover]
      exact ⟨(if_neg hc).symm, hbody⟩
  | newline hcover hc =>
      cases hk : k.cover with
      | quoted q => exact absurd hk (hcover q)
      | uncovered =>
          rw [Place.next_layout (by rw [hc]; decide)]
          exact ⟨rfl, fun hb => hendName ▸ hbody hb⟩
      | comment => exact ⟨(if_pos hc).symm, fun hb => hendName ▸ hbody hb⟩
  | layout hcover hc hl =>
      rw [hcover, Place.next_layout hl]
      exact ⟨rfl, fun hb => hendName ▸ hbody hb⟩
  | slash hcover hc =>
      rw [hcover, Place.next]
      simp only [if_pos hc]
      exact ⟨rfl, hbody⟩
  | char hcover hl hc h =>
      rw [hcover, Place.next]
      simp only [if_neg hc]
      refine ⟨rfl, fun hb hphase => ?_⟩
      obtain ⟨hpreamble, hbrace⟩ := Scanner.phase_char h hphase
      rcases Bool.or_eq_true_iff.1 hb with hin | hopen
      · exact hbody hin hpreamble
      · exact hbrace (beq_iff_eq.1 hopen)

end Cursor

def Element.unplaced (e : Element) : Element := { e with line := 0 }

def Statement.unplaced (s : Statement) : Statement :=
  ⟨s.name, s.typeName, s.annotations.map Element.unplaced, s.tags.map Element.unplaced, 0⟩

def Definition.unplaced (d : Definition) : Definition :=
  { d with statements := d.statements.map Statement.unplaced }

theorem Definition.unplaced_prepend (d : Definition) (statements : List Statement) :
    (d.prepend statements).unplaced = d.unplaced.prepend (statements.map Statement.unplaced) := by
  simp [unplaced, prepend]

def Block.unplaced (b : Block) : Block := { b with elementLine := 0 }

theorem Block.unplaced_push (b : Block) (line : Nat) (c : Char) :
    (b.push line c).unplaced = b.unplaced.push 0 c := by
  simp [push, unplaced]

namespace Draft

def unplaced (d : Draft) : Draft :=
  ⟨d.declaration, d.annotations.map Element.unplaced, d.tags.map Element.unplaced,
    d.startLine?.map fun _ => 0, d.block?.map Block.unplaced⟩

variable (d : Draft) (line : Nat)

theorem isVoid_unplaced : d.unplaced.isVoid = d.isVoid := by
  simp [isVoid, unplaced]

theorem unplaced_startAt : (d.startAt line).unplaced = d.unplaced.startAt 0 := by
  cases h : d.startLine? <;> simp [startAt, unplaced, h]

theorem unplaced_addElement (b : Block) :
    (d.addElement b).unplaced = d.unplaced.addElement b.unplaced := by
  simp only [addElement]
  grind [unplaced, Block.unplaced, Element.unplaced, addElement]

theorem toStatement_unplaced :
    d.unplaced.toStatement 0 = (d.toStatement line).map Statement.unplaced := by
  have hstart : d.unplaced.startLine?.getD 0 = 0 := by
    cases h : d.startLine? <;> simp [unplaced, h]
  have hdeclaration : d.unplaced.declaration = d.declaration := rfl
  simp only [toStatement, hdeclaration, hstart, bind, Except.bind, pure, Except.pure]
  split
  · rfl
  · cases splitDeclaration d.declaration <;> rfl

end Draft

namespace Scanner

def unplaced (s : Scanner) : Scanner := { s with draft := s.draft.unplaced, lastLine := 0 }

variable (s : Scanner) (line : Nat) (c : Char)

theorem unplaced_endName : s.endName.unplaced = s.unplaced.endName := by
  simp only [endName]
  grind [unplaced]

theorem unplaced_quotedChar : (s.quotedChar line c).unplaced = s.unplaced.quotedChar 0 c := by
  cases h : s.draft.block? <;>
    simp [quotedChar, unplaced, Draft.unplaced, h, Block.unplaced_push]

theorem blockChar_unplaced (d : Draft) (b : Block) :
    blockChar d.unplaced b.unplaced 0 c = (blockChar d b line c).map Draft.unplaced := by
  have hdepth : b.unplaced.depth = b.depth := rfl
  have hpushed (depth : Nat) :
      Draft.unplaced { d with block? := some { b.push line c with depth := depth } } =
        { d.unplaced with block? := some { b.unplaced.push 0 c with depth := depth } } := by
    rw [← Block.unplaced_push b line c]
    rfl
  have hfiled (b'? : Option Block) :
      Draft.unplaced { d.addElement b with block? := b'? } =
        { d.unplaced.addElement b.unplaced with block? := b'?.map Block.unplaced } := by
    rw [← Draft.unplaced_addElement d b]
    rfl
  unfold blockChar
  rw [hdepth]
  split
  · exact congrArg Except.ok (hpushed (b.depth + 1)).symm
  · split
    · rfl
    · exact congrArg Except.ok (hpushed (b.depth - 1)).symm
  · split
    · exact congrArg Except.ok (hfiled (some { b with element := "" })).symm
    · exact congrArg Except.ok (hpushed b.depth).symm
  · split
    · exact congrArg Except.ok (hfiled (some { b with element := "" })).symm
    · rfl
  · rfl
  · split
    · exact congrArg Except.ok (hfiled none).symm
    · rfl
  · exact congrArg Except.ok (hpushed b.depth).symm

theorem preambleChar_unplaced :
    s.unplaced.preambleChar c = (s.preambleChar c).map unplaced := by
  unfold preambleChar
  split
  all_goals try rfl
  change (if s.nameEnded then _ else _) = _
  split <;> rfl

theorem bodyChar_unplaced :
    s.unplaced.bodyChar 0 c =
      (s.bodyChar line c).map fun r => (r.1.unplaced, r.2.map Statement.unplaced) := by
  have hvoid : s.unplaced.draft.isVoid = s.draft.isVoid := Draft.isVoid_unplaced s.draft
  have hstatement : s.unplaced.draft.toStatement 0 =
      (s.draft.toStatement line).map Statement.unplaced := Draft.toStatement_unplaced s.draft line
  have hstart : s.unplaced.draft.startAt 0 = (s.draft.startAt line).unplaced :=
    (Draft.unplaced_startAt s.draft line).symm
  unfold bodyChar
  rw [hvoid, hstatement]
  split
  · split
    · rfl
    · cases s.draft.toStatement line <;> rfl
  · simp only [Draft.openBlock, hstart]
    rfl
  · split <;> rfl
  · rfl
  · rfl
  · simp only [hstart]
    rfl

theorem char_unplaced :
    s.unplaced.char 0 c =
      (s.char line c).map fun r => (r.1.unplaced, r.2.map Statement.unplaced) := by
  cases hphase : s.phase with
  | preamble =>
      have hphase' : s.unplaced.phase = .preamble := hphase
      simp only [char, hphase, hphase', preambleChar_unplaced]
      cases s.preambleChar c <;> rfl
  | closed =>
      have hphase' : s.unplaced.phase = .closed := hphase
      simp only [char, hphase, hphase']
      rfl
  | body =>
      have hphase' : s.unplaced.phase = .body := hphase
      cases hblock : s.draft.block? with
      | none =>
          have hblock' : s.unplaced.draft.block? = none := by simp [unplaced, Draft.unplaced, hblock]
          rw [char_outside_block hphase hblock, char_outside_block hphase' hblock',
            bodyChar_unplaced s line]
      | some b =>
          have hblock' : s.unplaced.draft.block? = some b.unplaced := by
            simp [unplaced, Draft.unplaced, hblock]
          have hdraft : s.unplaced.draft = s.draft.unplaced := rfl
          simp only [char, hphase, hphase', hblock, hblock']
          rw [hdraft, blockChar_unplaced line c s.draft b]
          cases blockChar s.draft b line c <;> rfl

end Scanner

namespace Cursor

variable {label : String} {k k' next : Cursor} {c : Char} {following? : Option Char}
  {statements : List Statement} {d : Definition}

/-- What has been read differs at most in lines. -/
structure Agrees (k k' : Cursor) : Prop where
  scanner_eq : k.scanner.unplaced = k'.scanner.unplaced
  cover_eq : k.cover = k'.cover

theorem Agrees.reads (hk : k.Agrees k') (h : k.Reads c following? next statements) :
    ∃ next' statements', k'.Reads c following? next' statements' ∧ next.Agrees next' ∧
      statements.map Statement.unplaced = statements'.map Statement.unplaced := by
  have hmarked : k.marked.unplaced = k'.marked.unplaced := hk.scanner_eq
  have hendName : k.marked.endName.unplaced = k'.marked.endName.unplaced := by
    rw [Scanner.unplaced_endName, Scanner.unplaced_endName, hmarked]
  cases h with
  | quoted hcover hc =>
      refine ⟨_, _, .quoted (hk.cover_eq ▸ hcover) hc, ⟨?_, rfl⟩, rfl⟩
      rw [Scanner.unplaced_quotedChar, Scanner.unplaced_quotedChar, hmarked]
  | skipped hcover hc => exact ⟨_, _, .skipped (hk.cover_eq ▸ hcover) hc, ⟨hmarked, rfl⟩, rfl⟩
  | newline hcover hc => exact ⟨_, _, .newline (hk.cover_eq ▸ hcover) hc, ⟨hendName, rfl⟩, rfl⟩
  | layout hcover hc hl =>
      exact ⟨_, _, .layout (hk.cover_eq ▸ hcover) hc hl, ⟨hendName, rfl⟩, rfl⟩
  | slash hcover hc => exact ⟨_, _, .slash (hk.cover_eq ▸ hcover) hc, ⟨hmarked, rfl⟩, rfl⟩
  | char hcover hl hc h =>
      have hchar := Scanner.char_unplaced k.marked k.line c
      rw [h, hmarked, Scanner.char_unplaced k'.marked k'.line c] at hchar
      cases hchar' : k'.marked.char k'.line c with
      | error fault =>
          rw [hchar'] at hchar
          cases hchar
      | ok result =>
          obtain ⟨s', statement?'⟩ := result
          rw [hchar'] at hchar
          obtain ⟨hs, hstatement⟩ := Prod.mk.inj (Except.ok.inj hchar)
          refine ⟨_, _, .char (hk.cover_eq ▸ hcover) hl hc hchar', ⟨hs.symm, rfl⟩, ?_⟩
          rw [← Option.toList_map, ← Option.toList_map, hstatement]

theorem readAll_nil_eq_ok_iff :
    k.readAll label [] = .ok d ↔
      (∀ q, k.cover ≠ .quoted q) ∧ k.scanner.phase = .closed ∧
        d = ⟨k.scanner.declaredName?, []⟩ := by
  rw [readAll, finish, Scanner.finish_endName, Scanner.finish]
  cases k.cover <;> cases k.scanner.phase <;> simp [Except.map, eq_comm]

theorem Agrees.readAll (hk : k.Agrees k') {cs : List Char} (h : k.readAll label cs = .ok d) :
    ∃ d', k'.readAll label cs = .ok d' ∧ d'.unplaced = d.unplaced := by
  induction cs generalizing k k' d with
  | nil =>
      obtain ⟨hcover, hphase, rfl⟩ := readAll_nil_eq_ok_iff.1 h
      have hphase' : k'.scanner.phase = .closed :=
        (congrArg Scanner.phase hk.scanner_eq).symm.trans hphase
      have hname : k'.scanner.declaredName? = k.scanner.declaredName? :=
        (congrArg Scanner.declaredName? hk.scanner_eq).symm
      exact ⟨_, readAll_nil_eq_ok_iff.2 ⟨hk.cover_eq ▸ hcover, hphase', rfl⟩, by rw [hname]⟩
  | cons c rest ih =>
      obtain ⟨next, statements, more, hreads, hmore, rfl⟩ := exists_of_readAll h
      obtain ⟨next', statements', hreads', hnext, hstatements⟩ := hk.reads hreads
      obtain ⟨more', hmore', heq⟩ := ih hnext hmore
      refine ⟨more'.prepend statements', ?_, ?_⟩
      · rw [hreads'.readAll, hmore']
        rfl
      · rw [Definition.unplaced_prepend, Definition.unplaced_prepend, hstatements, heq]

theorem readAll_marked {cs : List Char} (h : k.readAll label cs = .ok d) :
    (⟨k.marked, k.line, k.cover⟩ : Cursor).readAll label cs = .ok d := by
  cases cs with
  | nil =>
      obtain ⟨hcover, hphase, hd⟩ := readAll_nil_eq_ok_iff.1 h
      exact readAll_nil_eq_ok_iff.2 ⟨hcover, hphase, hd⟩
  | cons c rest => exact h

theorem readAll_layout {after : List Char} (hk : k.IsAt ⟨true, .uncovered⟩)
    (hl : Text.isLayout c = true) (h : k.readAll label after = .ok d) :
    ∃ d', k.readAll label (c :: after) = .ok d' ∧ d'.unplaced = d.unplaced ∧
      (c ≠ '\n' → d' = d) := by
  obtain ⟨hcover, hbody⟩ := hk
  have hendName : k.marked.endName = k.marked := Scanner.endName_of_phase_ne (hbody rfl)
  by_cases hc : c = '\n'
  · have hagrees : k.Agrees ⟨k.marked, k.line + 1, .uncovered⟩ := ⟨rfl, hcover⟩
    obtain ⟨d', hd', heq⟩ := hagrees.readAll h
    have hnewline : k.Reads c after.head? ⟨k.marked.endName, k.line + 1, .uncovered⟩ [] :=
      .newline (by simp [hcover]) hc
    refine ⟨d', ?_, heq, fun hne => absurd hc hne⟩
    rw [hnewline.readAll_nil, hendName, hd']
  · have hmarked := readAll_marked h
    have hlayout : k.Reads c after.head? ⟨k.marked.endName, k.line, .uncovered⟩ [] :=
      .layout hcover hc hl
    refine ⟨d, ?_, rfl, fun _ => rfl⟩
    rw [hlayout.readAll_nil, hendName, ← hmarked, hcover]

theorem Reads.before {following?' : Option Char} (h : k.Reads c following? next statements)
    (hnext : next.cover = .uncovered) (hslash : following?' ≠ some '/') :
    k.Reads c following?' next statements := by
  cases h with
  | quoted hk hc => exact .quoted hk hc
  | skipped hk hc => cases hnext
  | newline hk hc => exact .newline hk hc
  | layout hk hc hl => exact .layout hk hc hl
  | slash hk hc => cases hnext
  | char hk hl hc h => exact .char hk hl (fun hc' => hslash hc'.2) h

theorem readAll_insert_layout {p : Place} {before after : List Char} (hk : k.IsAt p)
    (hp : p.between before after = ⟨true, .uncovered⟩) (hl : Text.isLayout c = true)
    (h : k.readAll label (before ++ after) = .ok d) :
    ∃ d', k.readAll label (before ++ c :: after) = .ok d' ∧ d'.unplaced = d.unplaced ∧
      (c ≠ '\n' → d' = d) := by
  induction before generalizing k p d with
  | nil =>
      rw [Place.between] at hp
      exact readAll_layout (hp ▸ hk) hl h
  | cons b before ih =>
      obtain ⟨next, statements, more, hreads, hmore, rfl⟩ := exists_of_readAll h
      have hnext : next.IsAt (p.next b (before ++ after).head?) := hk.reads hreads
      -- only a slash directly before the place could be read otherwise; it opens no comment either
      -- way
      have hreads' : k.Reads b (before ++ c :: after).head? next statements := by
        cases before with
        | nil =>
            have hslash : (c :: after).head? ≠ some '/' := by
              intro hc
              rw [Option.some.inj hc] at hl
              exact absurd hl (by decide)
            rw [Place.between, Place.between] at hp
            exact hreads.before (by rw [hnext.cover_eq]; exact congrArg Place.cover hp) hslash
        | cons b' before => exact hreads
      obtain ⟨more', hmore', hunplaced, heq⟩ := ih hnext hp hmore
      refine ⟨more'.prepend statements, ?_, ?_, fun hc => by rw [heq hc]⟩
      · exact (hreads'.readAll label).trans (by rw [hmore']; rfl)
      · rw [Definition.unplaced_prepend, Definition.unplaced_prepend, hunplaced]

end Cursor

namespace Definition

open Scanner (withoutByteOrderMark)

theorem exists_withoutByteOrderMark {before after : List Char}
    (hp : Place.start.between before after = ⟨true, .uncovered⟩) :
    ∃ before', Place.start.between before' after = ⟨true, .uncovered⟩ ∧
      ∀ rest, withoutByteOrderMark 1 (before ++ rest) = before' ++ rest := by
  cases before with
  | nil => cases hp
  | cons c before =>
      by_cases hc : c = '\uFEFF'
      · subst hc
        refine ⟨before, ?_, fun rest => rfl⟩
        have hmark (following? : Option Char) :
            Place.start.next '\uFEFF' following? = Place.start := by
          simp only [Place.next, Place.start]
          rw [if_neg (fun h => absurd h.1 (by decide))]
          rfl
        rwa [Place.between, hmark] at hp
      · refine ⟨c :: before, hp, fun rest => ?_⟩
        simp [withoutByteOrderMark, hc]

/-- In the body, outside quotes and comments, another character of layout leaves a definition as it
is but for its lines, and changes no line unless it is a line feed. -/
theorem ofText_insert_layout {label before after : String} {c : Char} {d : Definition}
    (hl : Text.isLayout c = true)
    (hp : Place.start.between before.toList after.toList = ⟨true, .uncovered⟩)
    (h : ofText label (before ++ after) = .ok d) :
    ∃ d', ofText label (before ++ String.singleton c ++ after) = .ok d' ∧
      d'.unplaced = d.unplaced ∧ (c ≠ '\n' → d' = d) := by
  obtain ⟨before', hp', hbefore⟩ := exists_withoutByteOrderMark hp
  have htext : (before ++ String.singleton c ++ after).toList =
      before.toList ++ c :: after.toList := by
    simp
  rw [ofText_eq_readAll, String.toList_append, hbefore] at h
  rw [ofText_eq_readAll, htext, hbefore]
  exact Cursor.readAll_insert_layout Cursor.isAt_start hp' hl h

theorem ofText_insert_layout_seat :
    Place.start.between "Seat \x7b row: int \x7b @Min(".toList "1) \x7d; \x7d".toList =
        ⟨true, .uncovered⟩ ∧
      ofText "seat" ("Seat \x7b row: int \x7b @Min(" ++ "1) \x7d; \x7d") =
        .ok ⟨some "Seat", [⟨"row", "int", [⟨"@Min(1)", 1⟩], [], 1⟩]⟩ ∧
      ∃ d, ofText "seat" ("Seat \x7b row: int \x7b @Min(" ++ String.singleton '\n' ++
          "1) \x7d; \x7d") = .ok d ∧
        d.unplaced = ⟨some "Seat", [⟨"row", "int", [⟨"@Min(1)", 0⟩], [], 0⟩]⟩ := by
  have hplace : Place.start.between "Seat \x7b row: int \x7b @Min(".toList
      "1) \x7d; \x7d".toList = ⟨true, .uncovered⟩ := by decide +kernel
  have hread : ofText "seat" ("Seat \x7b row: int \x7b @Min(" ++ "1) \x7d; \x7d") =
      .ok ⟨some "Seat", [⟨"row", "int", [⟨"@Min(1)", 1⟩], [], 1⟩]⟩ := by decide +kernel
  obtain ⟨d, hd, hunplaced, -⟩ := ofText_insert_layout (c := '\n') (by decide) hplace hread
  exact ⟨hplace, hread, d, hd, hunplaced⟩

end Definition

end EntityModel
