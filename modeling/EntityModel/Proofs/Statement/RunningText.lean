import EntityModel.Definition
import EntityModel.Proofs.Statement.Reading
import EntityModel.Proofs.Statement.Transitions

/-!
# Running text

The scanner reads lines. The same can be said of the text as a single run of characters, in which
the line feed is one of them: it ends a comment, may not stand in quotes, and outside both it only
counts the lines. What holds for an arbitrary place of a text is proved on this form.
-/

namespace EntityModel

inductive Cover where
  | uncovered
  | quoted (q : Char)
  | comment
deriving Repr, DecidableEq

def Cover.ofQuote? : Option Char → Cover
  | none => .uncovered
  | some q => .quoted q

def Definition.prepend (statements : List Statement) (d : Definition) : Definition :=
  { d with statements := statements ++ d.statements }

/-- A scanner at a place of a text: the line of the place, and what covers it. -/
structure Cursor where
  scanner : Scanner
  line : Nat
  cover : Cover

namespace Cursor

def start : Cursor := ⟨{ Scanner.initial with lastLine := 1 }, 1, .uncovered⟩

def marked (k : Cursor) : Scanner := { k.scanner with lastLine := k.line }

def read (label : String) (k : Cursor) (c : Char) (following? : Option Char) :
    Except SyntaxError (Cursor × List Statement) :=
  match k.cover with
  | .quoted q =>
      if c = '\n' then .error ⟨label, k.line, .unterminatedQuote⟩
      else .ok (⟨k.marked.quotedChar k.line c, k.line, .ofQuote? (Text.quoteAfter (some q) c)⟩, [])
  | .comment =>
      if c = '\n' then .ok (⟨k.marked.endName, k.line + 1, .uncovered⟩, [])
      else .ok (⟨k.marked, k.line, .comment⟩, [])
  | .uncovered =>
      if c = '\n' then .ok (⟨k.marked.endName, k.line + 1, .uncovered⟩, [])
      else if Text.isLayout c then .ok (⟨k.marked.endName, k.line, .uncovered⟩, [])
      else if c = '/' ∧ following? = some '/' then .ok (⟨k.marked, k.line, .comment⟩, [])
      else
        match k.marked.char k.line c with
        | .error fault => .error ⟨label, k.line, fault⟩
        | .ok (next, statement?) =>
            .ok (⟨next, k.line, .ofQuote? (Text.quoteAfter none c)⟩, statement?.toList)

def finish (label : String) (k : Cursor) : Except SyntaxError (Option String) :=
  match k.cover with
  | .quoted _ => .error ⟨label, k.line, .unterminatedQuote⟩
  | .uncovered | .comment => k.scanner.endName.finish label

def readAll (label : String) (k : Cursor) : List Char → Except SyntaxError Definition
  | [] => (k.finish label).map fun name? => ⟨name?, []⟩
  | c :: rest =>
      match k.read label c rest.head? with
      | .error e => .error e
      | .ok (next, statements) => (next.readAll label rest).map (Definition.prepend statements)

end Cursor

namespace Scanner

theorem endName_endName (s : Scanner) : s.endName.endName = s.endName := by
  grind [endName]

theorem finish_endName (s : Scanner) (label : String) : s.endName.finish label = s.finish label := by
  grind [endName, finish, declaredName?]

/-- Reads a text by its lines from a place within the given line. -/
def readLines (label : String) (s : Scanner) (line : Nat) (open? : Option Char)
    (lines : List (List Char)) : Except SyntaxError Definition :=
  match s.chars line open? (lines.headD []) with
  | .error fault => .error ⟨label, line, fault⟩
  | .ok (last, statements) =>
      (Definition.ofLines label last line lines.tail).map (Definition.prepend statements)

end Scanner

theorem Definition.ofLines_cons (label : String) (s : Scanner) (n : Nat) (line : List Char)
    (lines : List (List Char)) :
    ofLines label s n (line :: lines) =
      Scanner.readLines label { s with lastLine := n + 1 } (n + 1) none
        (Scanner.withoutByteOrderMark (n + 1) line :: lines) := by
  rw [ofLines, Scanner.step, Scanner.readLines, List.headD_cons, List.tail_cons]
  cases Scanner.chars { s with lastLine := n + 1 } (n + 1) none
      (Scanner.withoutByteOrderMark (n + 1) line) with
  | error fault => rfl
  | ok result =>
      simp only [bind, Except.bind]
      cases ofLines label result.1 (n + 1) lines <;> rfl

theorem Text.lines_cons {c : Char} {rest : List Char} (hc : c ≠ '\n')
    (hr : ¬(c = '\r' ∧ rest.head? = some '\n')) :
    lines (c :: rest) = (c :: (lines rest).headD []) :: (lines rest).tail := by
  rw [lines]
  · cases lines rest <;> rfl
  · exact hc
  · rintro tail rfl rfl
    exact hr ⟨rfl, rfl⟩

theorem Text.lines_return {rest : List Char} (h : rest.head? = some '\n') :
    lines ('\r' :: rest) = lines rest ∧ (lines rest).headD [] = [] := by
  obtain ⟨tail, rfl⟩ := List.head?_eq_some_iff.1 h
  rw [lines_newline]
  exact ⟨rfl, rfl⟩

theorem Text.lines_ne_nil (c : Char) (rest : List Char) : lines (c :: rest) ≠ [] := by
  by_cases hc : c = '\n'
  · simp [hc]
  · by_cases hr : c = '\r' ∧ rest.head? = some '\n'
    · obtain ⟨tail, htail⟩ := List.head?_eq_some_iff.1 hr.2
      rw [hr.1, (lines_return hr.2).1, htail]
      simp
    · rw [lines_cons hc hr]
      exact List.cons_ne_nil _ _

theorem Text.head?_headD_lines {c : Char} (hc : c ≠ '\n') (hr : c ≠ '\r') (rest : List Char) :
    ((lines rest).headD []).head? = some c ↔ rest.head? = some c := by
  cases rest with
  | nil => simp
  | cons d rest =>
      by_cases hd : d = '\n'
      · subst hd
        simp [Ne.symm hc]
      · by_cases hdr : d = '\r' ∧ rest.head? = some '\n'
        · obtain ⟨rfl, hrest⟩ := hdr
          obtain ⟨hlines, hhead⟩ := lines_return hrest
          rw [hlines, hhead]
          simp [Ne.symm hr]
        · simp [lines_cons hd hdr]

namespace Scanner

variable {label : String} {s : Scanner} {line : Nat}

theorem map_prepend_nil (d : Except SyntaxError Definition) :
    d.map (Definition.prepend []) = d := by
  cases d <;> rfl

theorem readLines_of_empty (label : String) (s : Scanner) (line : Nat) {lines : List (List Char)}
    (h : lines.headD [] = []) :
    s.readLines label line none lines = Definition.ofLines label s.endName line lines.tail := by
  rw [readLines, h]
  exact map_prepend_nil _

theorem readLines_of_unterminated (label : String) (s : Scanner) (line : Nat) (q : Char)
    {lines : List (List Char)} (h : lines.headD [] = []) :
    s.readLines label line (some q) lines = .error ⟨label, line, .unterminatedQuote⟩ := by
  rw [readLines, h]
  rfl

section FirstChar

variable {c : Char} {l : List Char} {more : List (List Char)}

theorem readLines_quoted (q : Char) :
    s.readLines label line (some q) ((c :: l) :: more) =
      (s.quotedChar line c).readLines label line (Text.quoteAfter (some q) c) (l :: more) := rfl

theorem readLines_layout (hl : Text.isLayout c = true) :
    s.readLines label line none ((c :: l) :: more) =
      s.endName.readLines label line none (l :: more) := by
  rw [readLines, List.headD_cons, chars_cons_layout hl]
  rfl

theorem readLines_comment (hl : Text.isLayout c = false) (hc : c = '/' ∧ l.head? = some '/') :
    s.readLines label line none ((c :: l) :: more) =
      Definition.ofLines label s.endName line more := by
  rw [readLines, List.headD_cons, chars_comment hl hc]
  exact map_prepend_nil _

theorem readLines_char (hl : Text.isLayout c = false) (hc : ¬(c = '/' ∧ l.head? = some '/')) :
    s.readLines label line none ((c :: l) :: more) =
      match s.char line c with
      | .error fault => .error ⟨label, line, fault⟩
      | .ok (next, statement?) =>
          (next.readLines label line (Text.quoteAfter none c) (l :: more)).map
            (Definition.prepend statement?.toList) := by
  cases hchar : s.char line c with
  | error fault =>
      rw [readLines, List.headD_cons, chars, if_neg (by simp), if_neg (by simp [hl]),
        if_neg (by simpa using hc), hchar]
      rfl
  | ok result =>
      obtain ⟨next, statement?⟩ := result
      rw [readLines, List.headD_cons, chars_char hl (fun h h' => hc ⟨h, h'⟩) hchar]
      simp only [readLines, List.headD_cons, List.tail_cons]
      cases next.chars line (Text.quoteAfter none c) l with
      | error fault => rfl
      | ok result =>
          simp only [Except.map]
          cases Definition.ofLines label result.1 line more with
          | error e => rfl
          | ok d => simp only [Definition.prepend, List.append_assoc]

end FirstChar

theorem readLines_headD (label : String) (s : Scanner) (line : Nat) (open? : Option Char)
    (lines : List (List Char)) :
    s.readLines label line open? (lines.headD [] :: lines.tail) =
      s.readLines label line open? lines := rfl

end Scanner

namespace Cursor

variable {label : String} {k next : Cursor} {c : Char} {following? : Option Char}
  {rest : List Char} {statements : List Statement}

inductive Reads (k : Cursor) (c : Char) (following? : Option Char) :
    Cursor → List Statement → Prop where
  | quoted {q : Char} (hk : k.cover = .quoted q) (hc : c ≠ '\n') :
      Reads k c following?
        ⟨k.marked.quotedChar k.line c, k.line, .ofQuote? (Text.quoteAfter (some q) c)⟩ []
  | skipped (hk : k.cover = .comment) (hc : c ≠ '\n') :
      Reads k c following? ⟨k.marked, k.line, .comment⟩ []
  | newline (hk : ∀ q, k.cover ≠ .quoted q) (hc : c = '\n') :
      Reads k c following? ⟨k.marked.endName, k.line + 1, .uncovered⟩ []
  | layout (hk : k.cover = .uncovered) (hc : c ≠ '\n') (hl : Text.isLayout c = true) :
      Reads k c following? ⟨k.marked.endName, k.line, .uncovered⟩ []
  | slash (hk : k.cover = .uncovered) (hc : c = '/' ∧ following? = some '/') :
      Reads k c following? ⟨k.marked, k.line, .comment⟩ []
  | char {s : Scanner} {statement? : Option Statement} (hk : k.cover = .uncovered)
      (hl : Text.isLayout c = false) (hc : ¬(c = '/' ∧ following? = some '/'))
      (h : k.marked.char k.line c = .ok (s, statement?)) :
      Reads k c following? ⟨s, k.line, .ofQuote? (Text.quoteAfter none c)⟩ statement?.toList

private theorem ne_newline (hl : Text.isLayout c = false) : c ≠ '\n' := by
  intro hc
  rw [hc] at hl
  exact absurd hl (by decide)

theorem Reads.read_eq (h : k.Reads c following? next statements) (label : String) :
    k.read label c following? = .ok (next, statements) := by
  cases h with
  | quoted hk hc => simp [read, hk, hc]
  | skipped hk hc => simp [read, hk, hc]
  | newline hk hc =>
      cases hcover : k.cover with
      | quoted q => exact absurd hcover (hk q)
      | uncovered => simp [read, hcover, hc]
      | comment => simp [read, hcover, hc]
  | layout hk hc hl => simp [read, hk, hc, hl]
  | slash hk hc =>
      have hl : Text.isLayout '/' = false := by decide
      simp [read, hk, hc, hl]
  | char hk hl hc h =>
      simp only [read, hk, if_neg (ne_newline hl), hl, if_neg hc, h, Bool.false_eq_true, if_false]

theorem read_error {fault : SyntaxFault} (hk : k.cover = .uncovered)
    (hl : Text.isLayout c = false) (hc : ¬(c = '/' ∧ following? = some '/'))
    (h : k.marked.char k.line c = .error fault) (label : String) :
    k.read label c following? = .error ⟨label, k.line, fault⟩ := by
  simp only [read, hk, if_neg (ne_newline hl), hl, if_neg hc, h, Bool.false_eq_true, if_false]

theorem reads_of_read (h : k.read label c following? = .ok (next, statements)) :
    k.Reads c following? next statements := by
  unfold read at h
  cases hk : k.cover with
  | quoted q =>
      by_cases hc : c = '\n'
      · simp [hk, hc] at h
      · simp only [hk, if_neg hc] at h
        obtain ⟨rfl, rfl⟩ := Prod.mk.inj (Except.ok.inj h)
        exact .quoted hk hc
  | comment =>
      by_cases hc : c = '\n'
      · simp only [hk, if_pos hc] at h
        obtain ⟨rfl, rfl⟩ := Prod.mk.inj (Except.ok.inj h)
        exact .newline (by simp [hk]) hc
      · simp only [hk, if_neg hc] at h
        obtain ⟨rfl, rfl⟩ := Prod.mk.inj (Except.ok.inj h)
        exact .skipped hk hc
  | uncovered =>
      simp only [hk] at h
      split at h
      · rename_i hc
        obtain ⟨rfl, rfl⟩ := Prod.mk.inj (Except.ok.inj h)
        exact .newline (by simp [hk]) hc
      · rename_i hn
        split at h
        · rename_i hl
          obtain ⟨rfl, rfl⟩ := Prod.mk.inj (Except.ok.inj h)
          exact .layout hk hn hl
        · rename_i hl
          split at h
          · rename_i hc
            obtain ⟨rfl, rfl⟩ := Prod.mk.inj (Except.ok.inj h)
            exact .slash hk hc
          · rename_i hc
            split at h
            · cases h
            · rename_i hchar
              obtain ⟨rfl, rfl⟩ := Prod.mk.inj (Except.ok.inj h)
              exact .char hk (by simpa using hl) hc hchar

theorem Reads.readAll (h : k.Reads c rest.head? next statements) (label : String) :
    k.readAll label (c :: rest) = (next.readAll label rest).map (Definition.prepend statements) := by
  rw [Cursor.readAll, h.read_eq]

theorem Reads.readAll_nil (h : k.Reads c rest.head? next []) (label : String) :
    k.readAll label (c :: rest) = next.readAll label rest := by
  rw [h.readAll]
  exact Scanner.map_prepend_nil _

theorem exists_of_readAll {label : String} {d : Definition}
    (h : k.readAll label (c :: rest) = .ok d) :
    ∃ next statements more, k.Reads c rest.head? next statements ∧
      next.readAll label rest = .ok more ∧ d = more.prepend statements := by
  rw [readAll] at h
  cases hread : k.read label c rest.head? with
  | error e => simp [hread] at h
  | ok result =>
      obtain ⟨next, statements⟩ := result
      simp only [hread] at h
      cases hmore : next.readAll label rest with
      | error e => simp [hmore, Except.map] at h
      | ok more =>
          rw [hmore] at h
          exact ⟨next, statements, more, reads_of_read hread, hmore, (Except.ok.inj h).symm⟩

theorem marked_eq {s : Scanner} {line : Nat} {cover : Cover} (h : s.lastLine = line) :
    (⟨s, line, cover⟩ : Cursor).marked = s := by
  rw [marked, ← h]

end Cursor

namespace Scanner

variable {label : String} {s : Scanner} {line : Nat} {c : Char} {rest : List Char}

/-- From wherever in the line a text begins, reading on is reading the rest of the line and then the
lines after it. -/
structure IsReadByLines (label : String) (line : Nat) (cs : List Char) : Prop where
  outside : ∀ (s : Scanner) (open? : Option Char), s.lastLine = line →
    (∀ q ∈ open?, Text.isQuote q = true) →
    (⟨s, line, .ofQuote? open?⟩ : Cursor).readAll label cs =
      s.readLines label line open? (Text.lines cs)
  comment : ∀ s : Scanner, s.lastLine = line →
    (⟨s, line, .comment⟩ : Cursor).readAll label cs =
      Definition.ofLines label s.endName line (Text.lines cs).tail

namespace IsReadByLines

theorem uncovered (h : IsReadByLines label line rest) (hs : s.lastLine = line) :
    (⟨s, line, .uncovered⟩ : Cursor).readAll label rest =
      s.readLines label line none (Text.lines rest) :=
  h.outside s none hs (by simp)

theorem nil (label : String) (line : Nat) : IsReadByLines label line [] := by
  have hfinish (s : Scanner) : (s.endName.finish label).map (fun name? => ⟨name?, []⟩) =
      Definition.ofLines label s.endName line [] := by
    rw [Definition.ofLines]
    cases s.endName.finish label <;> rfl
  refine ⟨fun s open? _ _ => ?_, fun s _ => ?_⟩
  · cases open? with
    | none =>
        rw [readLines_of_empty label s line rfl]
        exact hfinish s
    | some q => rfl
  · exact hfinish s

theorem ofLines (h : IsReadByLines label (line + 1) rest) (hline : 1 ≤ line) (s : Scanner) :
    (⟨s, line + 1, .uncovered⟩ : Cursor).readAll label rest =
      Definition.ofLines label s line (Text.lines rest) := by
  cases rest with
  | nil =>
      rw [Cursor.readAll, Cursor.finish, finish_endName, Text.lines_nil, Definition.ofLines]
      cases s.finish label <;> rfl
  | cons c rest =>
      have hmark : (⟨s, line + 1, .uncovered⟩ : Cursor).readAll label (c :: rest) =
          (⟨{ s with lastLine := line + 1 }, line + 1, .uncovered⟩ : Cursor).readAll label
            (c :: rest) := rfl
      obtain ⟨first, more, hlines⟩ := List.exists_cons_of_ne_nil (Text.lines_ne_nil c rest)
      rw [hmark, h.uncovered rfl, hlines, Definition.ofLines_cons,
        withoutByteOrderMark_of_ne_one (by omega)]

theorem newline (h : IsReadByLines label (line + 1) rest) (hline : 1 ≤ line) :
    IsReadByLines label line ('\n' :: rest) := by
  refine ⟨fun s open? hs _ => ?_, fun s hs => ?_⟩
  · rw [Text.lines_newline]
    cases open? with
    | none =>
        rw [(Cursor.Reads.newline (by simp [Cover.ofQuote?]) rfl).readAll_nil,
          Cursor.marked_eq hs, h.ofLines hline, readLines_of_empty label s line rfl,
          List.tail_cons]
    | some q =>
        rw [readLines_of_unterminated label s line q rfl]
        rfl
  · rw [Text.lines_newline, (Cursor.Reads.newline (by simp) rfl).readAll_nil,
      Cursor.marked_eq hs, h.ofLines hline, List.tail_cons]

theorem carriageReturn (h : IsReadByLines label line rest) (hrest : rest.head? = some '\n') :
    IsReadByLines label line ('\r' :: rest) := by
  obtain ⟨hlines, hhead⟩ := Text.lines_return hrest
  refine ⟨fun s open? hs hopen => ?_, fun s hs => ?_⟩
  · rw [hlines]
    cases open? with
    | none =>
        rw [Cover.ofQuote?, (Cursor.Reads.layout rfl (by decide) (by decide)).readAll_nil,
          Cursor.marked_eq hs, h.uncovered ((lastLine_endName s).trans hs),
          readLines_of_empty label _ line hhead, readLines_of_empty label _ line hhead,
          endName_endName]
    | some q =>
        have hq : Text.quoteAfter (some q) '\r' = some q :=
          Text.quoteAfter_of_not_isQuote (hopen q rfl) (by decide)
        rw [(Cursor.Reads.quoted rfl (by decide)).readAll_nil, Cursor.marked_eq hs, hq,
          h.outside (s.quotedChar line '\r') (some q) hs hopen,
          readLines_of_unterminated _ _ _ _ hhead, readLines_of_unterminated _ _ _ _ hhead]
  · rw [(Cursor.Reads.skipped rfl (by decide)).readAll_nil, Cursor.marked_eq hs, h.comment s hs,
      hlines]

private theorem quoted (h : IsReadByLines label line rest) (hc : c ≠ '\n') (hs : s.lastLine = line)
    {q : Char} (hq : Text.isQuote q = true) :
    (⟨s, line, .quoted q⟩ : Cursor).readAll label (c :: rest) =
      s.readLines label line (some q) ((c :: (Text.lines rest).headD []) :: (Text.lines rest).tail) := by
  have hopen : ∀ q' ∈ Text.quoteAfter (some q) c, Text.isQuote q' = true :=
    Text.isQuote_of_mem_quoteAfter (by simpa using hq) c
  rw [(Cursor.Reads.quoted rfl hc).readAll_nil, Cursor.marked_eq hs,
    h.outside (s.quotedChar line c) _ hs hopen, readLines_quoted, readLines_headD]

private theorem unquoted (h : IsReadByLines label line rest) (hc : c ≠ '\n')
    (hs : s.lastLine = line) :
    (⟨s, line, .uncovered⟩ : Cursor).readAll label (c :: rest) =
      s.readLines label line none ((c :: (Text.lines rest).headD []) :: (Text.lines rest).tail) := by
  cases hl : Text.isLayout c with
  | true =>
      rw [(Cursor.Reads.layout rfl hc hl).readAll_nil, Cursor.marked_eq hs,
        h.uncovered ((lastLine_endName s).trans hs), readLines_layout hl, readLines_headD]
  | false =>
      have hslash : c = '/' ∧ ((Text.lines rest).headD []).head? = some '/' ↔
          c = '/' ∧ rest.head? = some '/' := by
        rw [Text.head?_headD_lines (by decide) (by decide)]
      by_cases hcomment : c = '/' ∧ rest.head? = some '/'
      · rw [(Cursor.Reads.slash rfl hcomment).readAll_nil, Cursor.marked_eq hs, h.comment s hs,
          readLines_comment hl (hslash.2 hcomment)]
      · have hmarked : (⟨s, line, .uncovered⟩ : Cursor).marked = s := Cursor.marked_eq hs
        rw [readLines_char hl (mt hslash.1 hcomment)]
        cases hchar : s.char line c with
        | error fault =>
            have hfault := Cursor.read_error rfl hl hcomment (hmarked.symm ▸ hchar) label
            rw [Cursor.readAll, hfault]
        | ok result =>
            have hopen : ∀ q ∈ Text.quoteAfter none c, Text.isQuote q = true :=
              Text.isQuote_of_mem_quoteAfter (by simp) c
            rw [(Cursor.Reads.char rfl hl hcomment (hmarked.symm ▸ hchar)).readAll,
              h.outside _ _ ((lastLine_char hchar).trans hs) hopen]
            simp only [readLines_headD]

theorem char (h : IsReadByLines label line rest) (hc : c ≠ '\n')
    (hr : ¬(c = '\r' ∧ rest.head? = some '\n')) : IsReadByLines label line (c :: rest) := by
  refine ⟨fun s open? hs hopen => ?_, fun s hs => ?_⟩
  · rw [Text.lines_cons hc hr]
    cases open? with
    | none => exact h.unquoted hc hs
    | some q => exact h.quoted hc hs (hopen q rfl)
  · rw [Text.lines_cons hc hr, (Cursor.Reads.skipped rfl hc).readAll_nil, Cursor.marked_eq hs,
      h.comment s hs, List.tail_cons]

end IsReadByLines

theorem isReadByLines (label : String) (cs : List Char) (hline : 1 ≤ line) :
    IsReadByLines label line cs := by
  induction cs generalizing line with
  | nil => exact .nil label line
  | cons c rest ih =>
      by_cases hc : c = '\n'
      · rw [hc]
        exact (ih (by omega)).newline hline
      · by_cases hr : c = '\r' ∧ rest.head? = some '\n'
        · rw [hr.1]
          exact (ih hline).carriageReturn hr.2
        · exact (ih hline).char hc hr

end Scanner

namespace Definition

open Scanner (withoutByteOrderMark)

/-- A definition is read as its text, which a byte order mark may open. -/
theorem ofText_eq_readAll (label text : String) :
    ofText label text = Cursor.start.readAll label (withoutByteOrderMark 1 text.toList) := by
  rw [ofText]
  cases htext : text.toList with
  | nil => rfl
  | cons c rest =>
      have hread (cs : List Char) : Cursor.start.readAll label cs =
          Scanner.readLines label { Scanner.initial with lastLine := 1 } 1 none (Text.lines cs) :=
        (Scanner.isReadByLines label cs (by omega)).uncovered rfl
      by_cases hmark : c = '\uFEFF'
      · subst hmark
        have hwithout (cs : List Char) : withoutByteOrderMark (0 + 1) ('\uFEFF' :: cs) = cs := rfl
        rw [hwithout, hread, Text.lines_cons (by decide) (by simp), ofLines_cons, hwithout]
        exact Scanner.readLines_headD ..
      · have hwithout : withoutByteOrderMark 1 (c :: rest) = c :: rest := by
          simp [withoutByteOrderMark, hmark]
        obtain ⟨first, more, hlines⟩ := List.exists_cons_of_ne_nil (Text.lines_ne_nil c rest)
        have hfirst : withoutByteOrderMark 1 first = first := by
          have hhead := Text.head?_headD_lines (c := '\uFEFF') (by decide) (by decide) (c :: rest)
          rw [hlines] at hhead
          have hne : first.head? ≠ some '\uFEFF' := fun h => hmark (by simpa using hhead.1 h)
          simp [withoutByteOrderMark, hne]
        rw [hwithout, hread, hlines, ofLines_cons, Nat.zero_add, hfirst]

end Definition

end EntityModel
