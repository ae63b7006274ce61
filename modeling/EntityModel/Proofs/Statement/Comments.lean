import EntityModel.Definition
import EntityModel.Proofs.Statement.RoundTrip
import EntityModel.Proofs.Statement.RunningText
import EntityModel.Proofs.Statement.Shape
import Mathlib.Data.List.Forall2

/-!
# Comments

A comment may be added to any line of a text, whatever the comment holds and wherever in the
definition the line ends. The line is then read as before: up to the comment the scanner does the
same, and the comment does what the end of the line did.
-/

namespace EntityModel

namespace Text

variable {line : List Char}

def joinLines (ls : List (List Char)) : List Char := ['\n'].intercalate ls

/-- A carriage return at the end of a line belongs to the line feed that follows. -/
def withoutReturn (line : List Char) : List Char :=
  if line.getLast? = some '\r' then line.dropLast else line

theorem withoutReturn_eq_or (line : List Char) :
    withoutReturn line = line ∨ withoutReturn line ++ ['\r'] = line := by
  by_cases hlast : line.getLast? = some '\r'
  · obtain ⟨start, rfl⟩ := List.getLast?_eq_some_iff.1 hlast
    simp [withoutReturn]
  · exact .inl (if_neg hlast)

private theorem lines_append_return (hn : '\n' ∉ line) (rest : List Char) :
    lines (line ++ '\r' :: '\n' :: rest) = line :: lines rest := by
  induction line with
  | nil =>
      have hnewline : ('\n' :: rest).head? = some '\n' := rfl
      obtain ⟨hlines, -⟩ := lines_return hnewline
      rw [List.nil_append, hlines, lines_newline]
  | cons c line ih =>
      rw [List.mem_cons, not_or] at hn
      have hreturn : ¬(c = '\r' ∧ (line ++ '\r' :: '\n' :: rest).head? = some '\n') := by
        rintro ⟨-, hhead⟩
        cases line with
        | nil => cases hhead
        | cons d line => exact hn.2 (by simp_all)
      rw [List.cons_append, lines_cons (Ne.symm hn.1) hreturn, ih hn.2]
      rfl

theorem lines_append_newline_eq (hn : '\n' ∉ line) (rest : List Char) :
    lines (line ++ '\n' :: rest) = withoutReturn line :: lines rest := by
  by_cases hlast : line.getLast? = some '\r'
  · obtain ⟨start, rfl⟩ := List.getLast?_eq_some_iff.1 hlast
    have hread := lines_append_return (fun hmem => hn (List.mem_append_left _ hmem)) rest
    simpa [withoutReturn] using hread
  · rw [lines_append_newline hn hlast, withoutReturn, if_neg hlast]

theorem lines_of_newline_notMem (hn : '\n' ∉ line) (hne : line ≠ []) : lines line = [line] := by
  induction line with
  | nil => exact absurd rfl hne
  | cons c line ih =>
      rw [List.mem_cons, not_or] at hn
      have hreturn : ¬(c = '\r' ∧ line.head? = some '\n') :=
        fun h => hn.2 (List.mem_of_mem_head? h.2)
      rw [lines_cons (Ne.symm hn.1) hreturn]
      cases line with
      | nil => rfl
      | cons d line =>
          rw [ih hn.2 (List.cons_ne_nil d line)]
          rfl

end Text

namespace Scanner

variable {s : Scanner} {line : Nat} {open? : Option Char} {tail tail' : List Char}

/-- At the end of a line, the first text does whatever the second does. -/
structure CanReplace (tail' tail : List Char) : Prop where
  head?_ne : ∀ c ∈ tail.head?, c ≠ '/' ∧ c ≠ '\uFEFF'
  head?_ne' : ∀ c ∈ tail'.head?, c ≠ '/' ∧ c ≠ '\uFEFF'
  chars_eq : ∀ {s : Scanner} {line : Nat} {open? : Option Char} {r : Scanner × List Statement},
    (∀ q ∈ open?, Text.isQuote q = true) →
    s.chars line open? tail = .ok r → s.chars line open? tail' = .ok r

theorem canReplace_comment (comment : List Char) :
    CanReplace (' ' :: '/' :: '/' :: comment) [] := by
  refine ⟨by simp, by simp, fun {s line open? r} _ h => ?_⟩
  cases open? with
  | some q => cases h
  | none =>
      rw [chars_cons_layout (by decide), chars_comment (by decide) ⟨rfl, rfl⟩, endName_endName]
      exact h

theorem canReplace_return : CanReplace [] ['\r'] := by
  refine ⟨by simp, by simp, fun {s line open? r} hopen h => ?_⟩
  cases open? with
  | some q =>
      have hq : Text.quoteAfter (some q) '\r' = some q :=
        Text.quoteAfter_of_not_isQuote (hopen q rfl) (by decide)
      rw [chars, if_pos (by simp), hq] at h
      cases h
  | none =>
      rw [chars_cons_layout (by decide)] at h
      rw [← h, chars, chars, endName_endName]

namespace CanReplace

private theorem head?_append (h : CanReplace tail' tail) (cs : List Char) :
    (cs ++ tail').head? = some '/' ↔ (cs ++ tail).head? = some '/' := by
  cases cs with
  | nil =>
      have hne (hhead : tail.head? = some '/') : False := (h.head?_ne _ hhead).1 rfl
      have hne' (hhead : tail'.head? = some '/') : False := (h.head?_ne' _ hhead).1 rfl
      exact ⟨fun hhead => (hne' hhead).elim, fun hhead => (hne hhead).elim⟩
  | cons c cs => exact Iff.rfl

theorem chars_append (h : CanReplace tail' tail) {cs : List Char} {r : Scanner × List Statement}
    (hopen : ∀ q ∈ open?, Text.isQuote q = true)
    (hr : s.chars line open? (cs ++ tail) = .ok r) :
    s.chars line open? (cs ++ tail') = .ok r := by
  induction cs generalizing s open? r with
  | nil => exact h.chars_eq hopen hr
  | cons c cs ih =>
      rw [List.cons_append] at hr ⊢
      have hnext : ∀ q ∈ Text.quoteAfter open? c, Text.isQuote q = true :=
        Text.isQuote_of_mem_quoteAfter hopen c
      cases open? with
      | some q => exact ih hnext hr
      | none =>
          cases hl : Text.isLayout c with
          | true =>
              rw [chars_cons_layout hl] at hr ⊢
              exact ih (by simp) hr
          | false =>
              -- a comment before the ends covers both of them
              by_cases hcomment : c = '/' ∧ (cs ++ tail).head? = some '/'
              · have hcomment' : c = '/' ∧ (cs ++ tail').head? = some '/' :=
                  ⟨hcomment.1, (h.head?_append cs).2 hcomment.2⟩
                rw [chars_comment hl hcomment'] 
                rwa [chars_comment hl hcomment] at hr
              · obtain ⟨last, statements⟩ := r
                obtain ⟨next, statement?, more, hchar, hmore, rfl⟩ :=
                  exists_of_chars_char hl hcomment hr
                have hcomment' : c = '/' → (cs ++ tail').head? ≠ some '/' :=
                  fun hc hhead => hcomment ⟨hc, (h.head?_append cs).1 hhead⟩
                rw [chars_char hl hcomment' hchar, ih hnext hmore]
                rfl

theorem withoutByteOrderMark_append (cs : List Char)
    (hne : ∀ c ∈ tail.head?, c ≠ '/' ∧ c ≠ '\uFEFF') :
    withoutByteOrderMark line (cs ++ tail) = withoutByteOrderMark line cs ++ tail := by
  cases cs with
  | nil =>
      have hhead : tail.head? ≠ some '\uFEFF' := fun h => (hne _ h).2 rfl
      simp [withoutByteOrderMark, hhead]
  | cons c cs =>
      by_cases hmark : line = 1 ∧ c = '\uFEFF'
      · simp [withoutByteOrderMark, hmark]
      · simp [withoutByteOrderMark, hmark]

end CanReplace

/-- Wherever the second line is read without a fault, the first one is read alike. -/
def ReadsAs (written line : List Char) : Prop :=
  ∀ (s : Scanner) (label : String) (n : Nat) (r : Scanner × List Statement),
    s.step label n line = .ok r → s.step label n written = .ok r

theorem ReadsAs.refl (line : List Char) : ReadsAs line line := fun _ _ _ _ h => h

theorem ReadsAs.trans {line written written' : List Char} (h : ReadsAs written line)
    (h' : ReadsAs written' written) : ReadsAs written' line :=
  fun s label n r hr => h' s label n r (h s label n r hr)

theorem CanReplace.readsAs (h : CanReplace tail' tail) (cs : List Char) :
    ReadsAs (cs ++ tail') (cs ++ tail) := by
  intro s label n r hr
  have hchars : { s with lastLine := n }.chars n none (withoutByteOrderMark n cs ++ tail) =
      .ok r := by
    rw [step, withoutByteOrderMark_append cs h.head?_ne] at hr
    split at hr
    · rename_i result hresult
      rw [← Except.ok.inj hr]
      exact hresult
    · cases hr
  refine step_of_chars ?_ label
  rw [withoutByteOrderMark_append cs h.head?_ne']
  exact h.chars_append (by simp) hchars

theorem readsAs_withoutReturn (line : List Char) : ReadsAs (Text.withoutReturn line) line := by
  rcases Text.withoutReturn_eq_or line with heq | heq
  · rw [heq]
    exact .refl line
  · have hread := canReplace_return.readsAs (Text.withoutReturn line)
    rwa [heq, List.append_nil] at hread

end Scanner

def Text.commentedLine (line : List Char) : Option String → List Char
  | none => line
  | some comment => line ++ ' ' :: '/' :: '/' :: comment.toList

namespace Definition

open Scanner (ReadsAs)

/-- The text with comments added to its lines, which are joined by line feeds. -/
def withComments (comments : Nat → Option String) (text : String) : String :=
  String.ofList (Text.joinLines
    ((Text.lines text.toList).mapIdx fun i line => Text.commentedLine line (comments i)))

theorem readsAs_commentedLine (line : List Char) (comment? : Option String) :
    ReadsAs (Text.commentedLine line comment?) line := by
  cases comment? with
  | none => exact .refl line
  | some comment =>
      have hread := (Scanner.canReplace_comment comment.toList).readsAs line
      rwa [List.append_nil] at hread

theorem newline_notMem_commentedLine {line : List Char} {comment? : Option String}
    (hline : '\n' ∉ line) (hcomment : ∀ c ∈ comment?, '\n' ∉ c.toList) :
    '\n' ∉ Text.commentedLine line comment? := by
  cases comment? with
  | none => exact hline
  | some comment => simp [Text.commentedLine, hline, hcomment comment rfl]

private theorem ofLines_nil_of_empty {label : String} {s : Scanner} {n : Nat} {d : Definition}
    (h : ofLines label s n [[]] = .ok d) : ofLines label s n [] = .ok d := by
  obtain ⟨next, statements, rest, hstep, hrest, rfl⟩ := exists_of_ofLines_cons h
  have hempty : s.step label (n + 1) [] = .ok ({ s with lastLine := n + 1 }.endName, []) := by
    simp [Scanner.step, Scanner.withoutByteOrderMark, Scanner.chars]
  rw [hempty] at hstep
  obtain ⟨rfl, rfl⟩ := Prod.mk.inj (Except.ok.inj hstep)
  rw [ofLines, Scanner.finish_endName] at hrest
  cases hphase : s.phase with
  | closed =>
      simp only [Scanner.finish, hphase] at hrest
      rw [← Except.ok.inj hrest, ofLines]
      simp only [Scanner.finish, hphase]
      rfl
  | preamble | body =>
      simp only [Scanner.finish, hphase] at hrest
      cases hrest

theorem ofLines_lines_joinLines {label : String} {s : Scanner} {n : Nat} {d : Definition}
    {ls written : List (List Char)}
    (hwritten : List.Forall₂ (fun line w => '\n' ∉ w ∧ ReadsAs w line) ls written)
    (h : ofLines label s n ls = .ok d) :
    ofLines label s n (Text.lines (Text.joinLines written)) = .ok d := by
  induction hwritten generalizing s n d with
  | nil => exact h
  | @cons line w ls written hw hrest ih =>
      obtain ⟨next, statements, rest, hstep, hunread, rfl⟩ := exists_of_ofLines_cons h
      have hnext {w' : List Char} {unread : List (List Char)} (hw' : ReadsAs w' line)
          (hunread' : ofLines label next (n + 1) unread = .ok rest) :=
        ofLines_of_step (hw' s label (n + 1) _ hstep) hunread'
      cases hrest with
      | nil =>
          by_cases hempty : w = []
          · subst hempty
            exact ofLines_nil_of_empty (hnext hw.2 hunread)
          · rw [Text.joinLines, List.intercalate_singleton,
              Text.lines_of_newline_notMem hw.1 hempty]
            exact hnext hw.2 hunread
      | @cons _ w' _ written' hw' hrest =>
          have hjoin : Text.joinLines (w :: w' :: written') =
              w ++ '\n' :: Text.joinLines (w' :: written') := by
            simp [Text.joinLines]
          rw [hjoin, Text.lines_append_newline_eq hw.1]
          exact hnext (hw.2.trans (Scanner.readsAs_withoutReturn w)) (ih hunread)

/-- Comments change nothing: whatever is written after two slashes at the ends of lines, a
definition has the same name and the same statements, with their texts and lines. -/
theorem ofText_withComments {label text : String} {comments : Nat → Option String} {d : Definition}
    (hcomments : ∀ i, ∀ c ∈ comments i, '\n' ∉ c.toList) (h : ofText label text = .ok d) :
    ofText label (withComments comments text) = .ok d := by
  rw [ofText, withComments, String.toList_ofList]
  refine ofLines_lines_joinLines ?_ h
  rw [List.forall₂_iff_get]
  refine ⟨by simp, fun i hi hi' => ?_⟩
  have hline : '\n' ∉ (Text.lines text.toList)[i] :=
    Text.newline_notMem_of_mem_lines (List.getElem_mem hi)
  simp only [List.get_eq_getElem, List.getElem_mapIdx]
  exact ⟨newline_notMem_commentedLine hline (hcomments i), readsAs_commentedLine _ _⟩

theorem ofText_withComments_seat :
    withComments (fun i => if i = 1 then none else some "' \x7d;//")
        "Seat\r\n\x7b row: int\n\x7b @Min(\n1), @DbTable('a//b') // x\n\x7d; \x7d\n" =
      "Seat //' \x7d;//\n\x7b row: int\n\x7b @Min( //' \x7d;//\n" ++
        "1), @DbTable('a//b') // x //' \x7d;//\n\x7d; \x7d //' \x7d;//" ∧
      ofText "seat" (withComments (fun i => if i = 1 then none else some "' \x7d;//")
        "Seat\r\n\x7b row: int\n\x7b @Min(\n1), @DbTable('a//b') // x\n\x7d; \x7d\n") =
      .ok ⟨some "Seat",
        [⟨"row", "int", [⟨"@Min(1)", 3⟩, ⟨"@DbTable('a//b')", 4⟩], [], 2⟩]⟩ := by
  refine ⟨by decide +kernel, ofText_withComments (fun i c hc => ?_) (by decide +kernel)⟩
  split at hc
  · cases hc
  · rw [← Option.some.inj hc]
    decide

end Definition

end EntityModel
