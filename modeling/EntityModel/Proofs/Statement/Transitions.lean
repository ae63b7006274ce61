import EntityModel.Proofs.Statement.Nesting
import EntityModel.Proofs.Success
import EntityModel.Statement.Scanner

/-!
# Transitions of the scanner

What a single character can do to the statement that is being read. Everything that holds of all
readings follows from these cases.
-/

namespace EntityModel

/-- What an unquoted character makes of a draft, with the quote that is open after it and the
statement that it ends. -/
inductive Draft.Reads (d : Draft) (line : Nat) (c : Char) :
    Option Char → Draft → Option Statement → Prop where
  | kept : Reads d line c none d none
  | declared (hb : d.block? = none) :
      Reads d line c none { d.startAt line with declaration := d.declaration.push c } none
  | opened (hb : d.block? = none) : Reads d line c none (d.openBlock line) none
  | ended {statement : Statement} (hb : d.block? = none) (hv : d.isVoid = false)
      (h : d.toStatement line = .ok statement) : Reads d line c none .empty (some statement)
  | extended {b : Block} {next : Nesting} (hb : d.block? = some b)
      (h : Nesting.after? ⟨b.depth, none⟩ c = some next) :
      Reads d line c next.quote?
        { d with block? := some { b.push line c with depth := next.depth } } none
  | filed {b : Block} (b'? : Option Block) (hb : d.block? = some b) (hd : b.depth = 0)
      (hb' : ∀ b' ∈ b'?, b' = { b with element := "" }) :
      Reads d line c none { d.addElement b with block? := b'? } none

namespace Scanner

variable {s next : Scanner} {line : Nat} {c : Char} {statement? : Option Statement}

private theorem quoteAfter_eq_none (hs : c ≠ '\'') (hd : c ≠ '"') :
    Text.quoteAfter none c = none := by
  simp [Text.quoteAfter, Text.isQuote, hs, hd]

private theorem reads_preambleChar (h : s.preambleChar c = .ok next) :
    s.draft.Reads line c (Text.quoteAfter none c) next.draft none := by
  unfold preambleChar at h
  split at h
  · obtain rfl := Except.ok.inj h
    exact .kept
  · cases h
  · cases h
  · cases h
  · cases h
  · rename_i hsingle hdouble
    rw [quoteAfter_eq_none hsingle hdouble]
    split at h
    · cases h
    · obtain rfl := Except.ok.inj h
      exact .kept

private theorem reads_bodyChar (hb : s.draft.block? = none)
    (h : s.bodyChar line c = .ok (next, statement?)) :
    s.draft.Reads line c (Text.quoteAfter none c) next.draft statement? := by
  unfold bodyChar at h
  split at h
  · split at h
    · obtain ⟨rfl, rfl⟩ := Prod.mk.inj (Except.ok.inj h)
      exact .kept
    · rename_i hvoid
      obtain ⟨statement, hstatement, h⟩ := bind_eq_ok_iff.1 h
      obtain ⟨rfl, rfl⟩ := Prod.mk.inj (Except.ok.inj h)
      exact .ended hb (by simpa using hvoid) hstatement
  · obtain ⟨rfl, rfl⟩ := Prod.mk.inj (Except.ok.inj h)
    exact .opened hb
  · split at h
    · obtain ⟨rfl, rfl⟩ := Prod.mk.inj (Except.ok.inj h)
      exact .kept
    · cases h
  · cases h
  · cases h
  · rename_i hsingle hdouble
    rw [quoteAfter_eq_none hsingle hdouble]
    obtain ⟨rfl, rfl⟩ := Prod.mk.inj (Except.ok.inj h)
    exact .declared hb

theorem reads_blockChar {d d' : Draft} {b : Block} (hb : d.block? = some b)
    (hl : Text.isLayout c = false) (h : blockChar d b line c = .ok d') :
    d.Reads line c (Text.quoteAfter none c) d' none := by
  have hextended (next : Nesting) (hnext : Nesting.after? ⟨b.depth, none⟩ c = some next)
      (hd' : { d with block? := some { b.push line c with depth := next.depth } } = d') :
      d.Reads line c (Text.quoteAfter none c) d' none := by
    rw [← hd', ← Nesting.quote?_of_after? hnext]
    exact .extended hb hnext
  unfold blockChar at h
  split at h
  · exact hextended ⟨b.depth + 1, none⟩ rfl (Except.ok.inj h)
  · split at h
    · cases h
    · rename_i hdepth
      exact hextended ⟨b.depth - 1, none⟩ (by simp [Nesting.after?, hdepth])
        (Except.ok.inj h)
  · split at h
    · rename_i hdepth
      obtain rfl := Except.ok.inj h
      exact .filed _ hb hdepth (by simp)
    · rename_i hdepth
      exact hextended ⟨b.depth, none⟩ (by simp [Nesting.after?, hdepth])
        (Except.ok.inj h)
  · split at h
    · rename_i hdepth
      obtain rfl := Except.ok.inj h
      exact .filed _ hb hdepth (by simp)
    · cases h
  · cases h
  · split at h
    · rename_i hdepth
      obtain rfl := Except.ok.inj h
      exact .filed _ hb hdepth (by simp)
    · cases h
  · rename_i hopening hclosing hcomma hsemicolon hbrace hbrace'
    refine hextended ⟨b.depth, Text.quoteAfter none c⟩ ?_ (Except.ok.inj h)
    rw [Nesting.after?]
    · simp [hl]
    all_goals assumption

theorem reads_char (hl : Text.isLayout c = false) (h : s.char line c = .ok (next, statement?)) :
    s.draft.Reads line c (Text.quoteAfter none c) next.draft statement? := by
  unfold char at h
  split at h
  · obtain ⟨s', hnext, h⟩ := bind_eq_ok_iff.1 h
    obtain ⟨rfl, rfl⟩ := Prod.mk.inj (Except.ok.inj h)
    exact reads_preambleChar hnext
  · cases h
  · rename_i b _ hb
    obtain ⟨d, hnext, h⟩ := bind_eq_ok_iff.1 h
    obtain ⟨rfl, rfl⟩ := Prod.mk.inj (Except.ok.inj h)
    exact reads_blockChar hb hl hnext
  · rename_i hb
    exact reads_bodyChar hb h

theorem lastLine_endName (s : Scanner) : s.endName.lastLine = s.lastLine := by
  rw [endName]
  split <;> rfl

theorem phase_endName (s : Scanner) : s.endName.phase = s.phase := by
  rw [endName]
  split <;> rfl

theorem name_endName (s : Scanner) : s.endName.name = s.name := by
  rw [endName]
  split <;> rfl

private theorem lastLine_preambleChar (h : s.preambleChar c = .ok next) :
    next.lastLine = s.lastLine := by
  unfold preambleChar at h
  grind

private theorem lastLine_bodyChar (h : s.bodyChar line c = .ok (next, statement?)) :
    next.lastLine = s.lastLine := by
  unfold bodyChar at h
  simp only [bind, Except.bind, pure, Except.pure] at h
  grind

theorem lastLine_char (h : s.char line c = .ok (next, statement?)) :
    next.lastLine = s.lastLine := by
  unfold char at h
  simp only [bind, Except.bind, pure, Except.pure] at h
  grind [lastLine_preambleChar, lastLine_bodyChar]

theorem chars_comment {rest : List Char} (hl : Text.isLayout c = false)
    (hc : c = '/' ∧ rest.head? = some '/') :
    s.chars line none (c :: rest) = .ok (s.endName, []) := by
  rw [chars, if_neg (by simp), if_neg (by simp [hl]), if_pos (by simpa using hc)]

theorem exists_of_chars_char {rest : List Char} {last : Scanner} {statements : List Statement}
    (hl : Text.isLayout c = false) (hc : ¬(c = '/' ∧ rest.head? = some '/'))
    (h : s.chars line none (c :: rest) = .ok (last, statements)) :
    ∃ next statement? more, s.char line c = .ok (next, statement?) ∧
      next.chars line (Text.quoteAfter none c) rest = .ok (last, more) ∧
      statements = statement?.toList ++ more := by
  rw [chars] at h
  simp only [Option.isSome_none, Bool.false_eq_true, if_false, hl, Bool.and_eq_true,
    decide_eq_true_eq, hc] at h
  obtain ⟨⟨next, statement?⟩, hchar, h⟩ := bind_eq_ok_iff.1 h
  obtain ⟨⟨last', more⟩, hmore, h⟩ := bind_eq_ok_iff.1 h
  obtain ⟨rfl, rfl⟩ := Prod.mk.inj (Except.ok.inj h)
  exact ⟨next, statement?, more, hchar, hmore, rfl⟩

/-- What holds of the scanner throughout a line holds of it at the end of the line, which ends the
name. -/
theorem exists_endName_of_chars {P : Scanner → Prop} (hendName : ∀ s, P s → P s.endName)
    (hquoted : ∀ s c, P s → P (s.quotedChar line c))
    (hchar : ∀ s c next statement?, P s → s.char line c = .ok (next, statement?) → P next)
    {open? : Option Char} {cs : List Char} {statements : List Statement} (hs : P s)
    (h : s.chars line open? cs = .ok (next, statements)) : ∃ s', P s' ∧ next = s'.endName := by
  induction cs generalizing s open? statements with
  | nil =>
      rw [chars] at h
      split at h
      · cases h
      · exact ⟨s, hs, (Prod.mk.inj (Except.ok.inj h)).1.symm⟩
  | cons c rest ih =>
      cases open? with
      | some q => exact ih (hquoted s c hs) h
      | none =>
          by_cases hlayout : Text.isLayout c = true
          · rw [chars, if_neg (by simp), if_pos hlayout] at h
            exact ih (hendName s hs) h
          · rw [Bool.not_eq_true] at hlayout
            by_cases hcomment : c = '/' ∧ rest.head? = some '/'
            · rw [chars_comment hlayout hcomment] at h
              exact ⟨s, hs, (Prod.mk.inj (Except.ok.inj h)).1.symm⟩
            · obtain ⟨s', statement?, more, hread, hmore, -⟩ :=
                exists_of_chars_char hlayout hcomment h
              exact ih (hchar s c s' statement? hs hread) hmore

theorem lastLine_chars {open? : Option Char} {cs : List Char} {statements : List Statement}
    (h : s.chars line open? cs = .ok (next, statements)) : next.lastLine = s.lastLine := by
  obtain ⟨s', hs', rfl⟩ := exists_endName_of_chars (P := fun s' => s'.lastLine = s.lastLine)
    (fun s' hs' => (lastLine_endName s').trans hs') (fun s' c hs' => hs')
    (fun s' c next statement? hs' hread => (lastLine_char hread).trans hs') rfl h
  rw [lastLine_endName, hs']

/-- Whatever each character of a line keeps, quoted or not, the line keeps, with the statements that
it and the lines before it have ended. -/
theorem chars_invariant {I : Option Char → Draft → List Statement → Prop} {cs : List Char}
    (hquoted : ∀ q d done c, c ≠ '\n' → I (some q) d done →
      I (Text.quoteAfter (some q) c) { d with block? := d.block?.map (·.push line c) } done)
    (hreads : ∀ d done c open? d' statement?, I none d done →
      d.Reads line c open? d' statement? → I open? d' (done ++ statement?.toList))
    {last : Scanner} {statements done : List Statement} {open? : Option Char} (hcs : '\n' ∉ cs)
    (hs : I open? s.draft done) (h : s.chars line open? cs = .ok (last, statements)) :
    I none last.draft (done ++ statements) := by
  have hendName (s : Scanner) : s.endName.draft = s.draft := by
    rw [endName]
    split <;> rfl
  induction cs generalizing s open? done statements with
  | nil =>
      rw [chars] at h
      cases open? with
      | some q => cases h
      | none =>
          obtain ⟨rfl, rfl⟩ := Prod.mk.inj (Except.ok.inj h)
          rw [List.append_nil, hendName]
          exact hs
  | cons c rest ih =>
      rw [List.mem_cons, not_or] at hcs
      cases open? with
      | some q =>
          rw [chars] at h
          exact ih hcs.2 (hquoted q s.draft done c (Ne.symm hcs.1) hs) h
      | none =>
          by_cases hlayout : Text.isLayout c = true
          · rw [chars] at h
            simp only [Option.isSome_none, Bool.false_eq_true, if_false, hlayout, if_true] at h
            exact ih hcs.2 (by rwa [hendName]) h
          · rw [Bool.not_eq_true] at hlayout
            by_cases hcomment : c = '/' ∧ rest.head? = some '/'
            · rw [chars_comment hlayout hcomment] at h
              obtain ⟨rfl, rfl⟩ := Prod.mk.inj (Except.ok.inj h)
              rw [List.append_nil, hendName]
              exact hs
            · obtain ⟨next, statement?, more, hchar, hmore, rfl⟩ :=
                exists_of_chars_char hlayout hcomment h
              rw [← List.append_assoc]
              exact ih hcs.2 (hreads s.draft done c _ _ _ hs (reads_char hlayout hchar)) hmore

end Scanner

end EntityModel
