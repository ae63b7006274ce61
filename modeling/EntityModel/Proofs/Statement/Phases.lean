import EntityModel.Proofs.Statement.DeclaredName

/-!
# Phases of the scanner

The phases of a definition follow each other and none comes back. A statement is read in the body
only: before the body nothing of one has been read, and at its end nothing of one is left. After the
body the scanner takes layout and a comment, and nothing else.
-/

namespace EntityModel

/-- Layout, and perhaps a comment after it. -/
inductive Text.IsIdle : List Char → Prop where
  | nil : IsIdle []
  | layout {c : Char} {rest : List Char} (hc : isLayout c = true) (h : IsIdle rest) :
      IsIdle (c :: rest)
  | comment (rest : List Char) : IsIdle ('/' :: '/' :: rest)

def Phase.rank : Phase → Nat
  | preamble => 0
  | body => 1
  | closed => 2

namespace Scanner

variable {s next last : Scanner} {label : String} {line : Nat} {c : Char} {cs : List Char}
  {statement? : Option Statement} {statements : List Statement}

/-- What an unquoted character makes of the phase. -/
inductive Moves (s next : Scanner) : Prop where
  -- the preamble goes on or is over, and no statement has been started
  | preamble (hs : s.phase = .preamble) (hnext : next.phase ≠ .closed)
      (hdraft : next.draft = s.draft)
  | body (hs : s.phase = .body) (hnext : next.phase = .body)
  | closed (hs : s.phase = .body) (hnext : next.phase = .closed) (hvoid : s.draft.isVoid = true)
      (hdraft : next.draft = s.draft)

private theorem moves_preambleChar (hs : s.phase = .preamble) (h : s.preambleChar c = .ok next) :
    s.Moves next := by
  unfold preambleChar at h
  split at h
  · obtain rfl := Except.ok.inj h
    exact .preamble hs (by simp) rfl
  · cases h
  · cases h
  · cases h
  · cases h
  · split at h
    · cases h
    · obtain rfl := Except.ok.inj h
      exact .preamble hs (by simp [hs]) rfl

private theorem moves_bodyChar (hs : s.phase = .body)
    (h : s.bodyChar line c = .ok (next, statement?)) : s.Moves next := by
  unfold bodyChar at h
  split at h
  · split at h
    · obtain ⟨rfl, rfl⟩ := Prod.mk.inj (Except.ok.inj h)
      exact .body hs hs
    · obtain ⟨statement, hstatement, h⟩ := bind_eq_ok_iff.1 h
      obtain ⟨rfl, rfl⟩ := Prod.mk.inj (Except.ok.inj h)
      exact .body hs hs
  · obtain ⟨rfl, rfl⟩ := Prod.mk.inj (Except.ok.inj h)
    exact .body hs hs
  · split at h
    · rename_i hvoid
      obtain ⟨rfl, rfl⟩ := Prod.mk.inj (Except.ok.inj h)
      exact .closed hs rfl hvoid rfl
    · cases h
  · cases h
  · cases h
  · obtain ⟨rfl, rfl⟩ := Prod.mk.inj (Except.ok.inj h)
    exact .body hs hs

theorem moves_char (h : s.char line c = .ok (next, statement?)) : s.Moves next := by
  unfold char at h
  split at h
  · rename_i hs
    obtain ⟨s', hnext, h⟩ := bind_eq_ok_iff.1 h
    obtain ⟨rfl, rfl⟩ := Prod.mk.inj (Except.ok.inj h)
    exact moves_preambleChar hs hnext
  · cases h
  · rename_i hs hb
    obtain ⟨d, hnext, h⟩ := bind_eq_ok_iff.1 h
    obtain ⟨rfl, rfl⟩ := Prod.mk.inj (Except.ok.inj h)
    exact .body hs hs
  · rename_i hs hb
    exact moves_bodyChar hs h

theorem Moves.rank_le (h : s.Moves next) : s.phase.rank ≤ next.phase.rank := by
  cases h with
  | preamble hs => simp [hs, Phase.rank]
  | body hs hnext => simp [hs, hnext]
  | closed hs hnext => simp [hs, hnext, Phase.rank]

theorem inBlock_eq_false_iff : s.inBlock = false ↔ s.draft.block? = none := by simp [inBlock]

structure IsCoherent (s : Scanner) : Prop where
  body_of_inBlock : s.inBlock = true → s.phase = .body
  preamble : s.phase = .preamble → s.draft = .empty
  closed : s.phase = .closed → s.draft.isVoid = true

theorem isCoherent_initial : initial.IsCoherent := ⟨nofun, fun _ => rfl, nofun⟩

theorem Moves.isCoherent (h : s.Moves next) (hs : s.IsCoherent) : next.IsCoherent := by
  cases h with
  | preamble hphase hnext hdraft =>
      have hempty : next.draft = .empty := hdraft.trans (hs.preamble hphase)
      refine ⟨fun hblock => ?_, fun _ => hempty, fun hclosed => absurd hclosed hnext⟩
      rw [inBlock, hempty] at hblock
      cases hblock
  | body hphase hnext => exact ⟨fun _ => hnext, by simp [hnext], by simp [hnext]⟩
  | closed hphase hnext hvoid hdraft =>
      refine ⟨fun hblock => ?_, by simp [hnext], fun _ => hdraft ▸ hvoid⟩
      rw [inBlock, hdraft] at hblock
      simp [Draft.isVoid, Option.isSome_iff_ne_none.1 hblock] at hvoid

theorem IsCoherent.endName (hs : s.IsCoherent) : s.endName.IsCoherent := by
  rw [Scanner.endName]
  split
  · exact ⟨hs.body_of_inBlock, hs.preamble, hs.closed⟩
  · exact hs

theorem quotedChar_of_not_inBlock (h : s.inBlock = false) : s.quotedChar line c = s := by
  obtain ⟨phase, name, nameEnded, ⟨declaration, annotations, tags, startLine?, block?⟩, lastLine⟩ := s
  obtain rfl : block? = none := inBlock_eq_false_iff.1 h
  rfl

theorem IsCoherent.quotedChar (hs : s.IsCoherent) : (s.quotedChar line c).IsCoherent := by
  cases hblock : s.inBlock with
  | false =>
      rw [quotedChar_of_not_inBlock hblock]
      exact hs
  | true =>
      have hphase : (s.quotedChar line c).phase = .body := hs.body_of_inBlock hblock
      exact ⟨fun _ => hphase, by simp [hphase], by simp [hphase]⟩

theorem of_chars {P : Scanner → Prop} (hendName : ∀ s, P s → P s.endName)
    (hquoted : ∀ s c, P s → P (s.quotedChar line c)) (hmoves : ∀ s next, P s → s.Moves next → P next)
    (hs : P s) (h : s.chars line none cs = .ok (last, statements)) : P last := by
  obtain ⟨s', hs', rfl⟩ := exists_endName_of_chars hendName hquoted
    (fun s c next statement? hs hread => hmoves s next hs (moves_char hread)) hs h
  exact hendName s' hs'

theorem chars_of_step (h : s.step label line cs = .ok (next, statements)) :
    { s with lastLine := line }.chars line none (withoutByteOrderMark line cs) =
      .ok (next, statements) := by
  rw [step] at h
  split at h
  · rename_i hchars
    rw [hchars, Except.ok.inj h]
  · cases h

theorem rank_le_of_step (h : s.step label line cs = .ok (next, statements)) :
    s.phase.rank ≤ next.phase.rank := by
  have hmarked : s.phase.rank ≤ ({ s with lastLine := line } : Scanner).phase.rank := Nat.le_refl _
  refine of_chars (P := fun s' => s.phase.rank ≤ s'.phase.rank) ?_ ?_ ?_ hmarked (chars_of_step h)
  · intro s' hs'
    rwa [phase_endName]
  · intro s' c hs'
    exact hs'
  · intro s' next' hs' hmoves
    exact Nat.le_trans hs' hmoves.rank_le

theorem IsCoherent.step (hs : s.IsCoherent) (h : s.step label line cs = .ok (next, statements)) :
    next.IsCoherent := by
  have hmarked : { s with lastLine := line }.IsCoherent :=
    ⟨hs.body_of_inBlock, hs.preamble, hs.closed⟩
  exact of_chars (fun _ hs => hs.endName) (fun _ _ hs => hs.quotedChar)
    (fun _ _ hs hmoves => hmoves.isCoherent hs) hmarked (chars_of_step h)

theorem chars_of_closed (hs : s.phase = .closed) :
    s.chars line none cs = .ok (next, statements) ↔
      Text.IsIdle cs ∧ next = s ∧ statements = [] := by
  have hended : s.endName = s := endName_of_phase_ne (by simp [hs])
  induction cs with
  | nil =>
      rw [chars, if_neg (by simp), hended]
      simp [Text.IsIdle.nil, eq_comm]
  | cons c rest ih =>
      by_cases hlayout : Text.isLayout c = true
      · have hidle : Text.IsIdle (c :: rest) ↔ Text.IsIdle rest := by
          constructor
          · intro h
            cases h with
            | layout hc hrest => exact hrest
            | comment => exact absurd hlayout (by decide)
          · exact .layout hlayout
        rw [chars_cons_layout hlayout, hended, hidle]
        exact ih
      · rw [Bool.not_eq_true] at hlayout
        by_cases hcomment : c = '/' ∧ rest.head? = some '/'
        · rw [chars_comment hlayout hcomment, hended]
          obtain ⟨rfl, hhead⟩ := hcomment
          obtain ⟨rest, rfl⟩ := List.head?_eq_some_iff.1 hhead
          simp [Text.IsIdle.comment, eq_comm]
        · have hread : s.char line c = .error (.afterBody c) := by simp [char, hs]
          constructor
          · intro h
            obtain ⟨s', statement?, more, hok, -⟩ := exists_of_chars_char hlayout hcomment h
            rw [hread] at hok
            cases hok
          · intro h
            cases h.1 with
            | layout hc => simp [hlayout] at hc
            | comment => exact absurd ⟨rfl, rfl⟩ hcomment

theorem step_of_closed (hs : s.phase = .closed) :
    s.step label line cs = .ok (next, statements) ↔
      Text.IsIdle (withoutByteOrderMark line cs) ∧ next = { s with lastLine := line } ∧
        statements = [] := by
  have hmarked : ({ s with lastLine := line } : Scanner).phase = .closed := hs
  rw [← chars_of_closed hmarked]
  constructor
  · exact chars_of_step
  · intro h
    rw [step, h]

end Scanner

structure NumberedLine where
  label : String
  number : Nat
  text : List Char

namespace NumberedLine

abbrev Step (σ : Type) : Type :=
  σ → String → Nat → List Char → Except SyntaxError (σ × List Statement)

variable {σ : Type} {step : Step σ} {s last : σ} {lines : List NumberedLine}
  {statements : List Statement}

def readAll (step : Step σ) (s : σ) : List NumberedLine → Except SyntaxError (σ × List Statement)
  | [] => .ok (s, [])
  | l :: rest => do
      let (next, statements) ← step s l.label l.number l.text
      let (last, more) ← readAll step next rest
      return (last, statements ++ more)

theorem of_readAll {P : σ → Prop}
    (hstep : ∀ s label line cs next statements, P s →
      step s label line cs = .ok (next, statements) → P next)
    (hs : P s) (h : readAll step s lines = .ok (last, statements)) : P last := by
  induction lines generalizing s statements with
  | nil =>
      obtain ⟨rfl, rfl⟩ := Prod.mk.inj (Except.ok.inj h)
      exact hs
  | cons l rest ih =>
      obtain ⟨⟨next, first⟩, hfirst, h⟩ := bind_eq_ok_iff.1 h
      obtain ⟨⟨last', more⟩, hmore, h⟩ := bind_eq_ok_iff.1 h
      obtain ⟨rfl, rfl⟩ := Prod.mk.inj (Except.ok.inj h)
      exact ih (hstep s _ _ _ next first hs hfirst) hmore

end NumberedLine

namespace Scanner

open NumberedLine (readAll of_readAll)

variable {s last : Scanner} {name : String} {lines : List NumberedLine}
  {statements : List Statement}

theorem isCoherent_of_readAll (h : readAll step initial lines = .ok (s, statements)) :
    s.IsCoherent :=
  of_readAll (fun _ _ _ _ _ _ hs hstep => hs.step hstep) isCoherent_initial h

theorem rank_le_of_readAll (h : readAll step s lines = .ok (last, statements)) :
    s.phase.rank ≤ last.phase.rank :=
  of_readAll (P := fun s' => s.phase.rank ≤ s'.phase.rank)
    (fun _ _ _ _ _ _ hs hstep => Nat.le_trans hs (rank_le_of_step hstep)) (Nat.le_refl _) h

theorem hasName_of_readAll (h : readAll step initial lines = .ok (s, statements))
    (hname : s.declaredName? = some name) : s.HasName name :=
  of_readAll (P := fun s => ∀ name, s.declaredName? = some name → s.HasName name)
    (fun _ _ _ _ _ _ _ hstep _ hname => hasName_of_step hstep hname) nofun h name hname

theorem HasName.readAll (hs : s.HasName name)
    (h : NumberedLine.readAll Scanner.step s lines = .ok (last, statements)) : last.HasName name :=
  of_readAll (P := fun s => s.HasName name) (fun _ _ _ _ _ _ hs hstep => hs.step hstep) hs h

end Scanner

end EntityModel
