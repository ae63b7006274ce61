import EntityModel.Definition
import EntityModel.Proofs.Statement.Transitions

/-!
# Streaming against folding

A definition is read in two ways: by the stream, which reads a line only when a statement is asked
for, and by the scanner folded over all lines. However often the stream is asked, it answers with
the statements of the fold, then with its fault if there is one, and then with nothing.
-/

namespace EntityModel

namespace Scanner

variable {s next : Scanner} {line : Nat}

theorem lastLine_step {label : String} {cs : List Char} {statements : List Statement}
    (h : s.step label line cs = .ok (next, statements)) : next.lastLine = line := by
  rw [step] at h
  split at h
  · rename_i hchars
    obtain rfl := Except.ok.inj h
    exact lastLine_chars hchars
  · cases h

theorem line_of_step_error {label : String} {cs : List Char} {e : SyntaxError}
    (h : s.step label line cs = .error e) : e.line = line := by
  rw [step] at h
  split at h
  · cases h
  · rw [← Except.error.inj h]

theorem line_of_finish_error {label : String} {e : SyntaxError} (h : s.finish label = .error e) :
    e.line = max s.lastLine 1 := by
  rw [finish] at h
  split at h
  · rw [← Except.error.inj h]
  · rw [← Except.error.inj h]
  · cases h

end Scanner

/-- How far the lines of a definition have been read: the statements that they end, and the scanner
after them or the first fault. -/
structure Progress where
  statements : List Statement
  scanner : Except SyntaxError Scanner

namespace Progress

def start (s : Scanner) : Progress := ⟨[], .ok s⟩

def readLine (label : String) (p : Progress) (line : List Char × Nat) : Progress :=
  match p.scanner with
  | .error _ => p
  | .ok s =>
      match s.step label line.2 line.1 with
      | .ok (next, statements) => ⟨p.statements ++ statements, .ok next⟩
      | .error e => { p with scanner := .error e }

def readLines (label : String) (p : Progress) (n : Nat) (lines : List (List Char)) : Progress :=
  (lines.zipIdx (n + 1)).foldl (readLine label) p

def ofLines (label : String) (lines : List (List Char)) : Progress :=
  (start .initial).readLines label 0 lines

def outcome (label : String) (p : Progress) : Except SyntaxError (Option String) :=
  p.scanner.bind fun s => s.finish label

/-- The statements in order, and the fault after them if there is one. -/
def items (label : String) (p : Progress) : List (Except SyntaxError Statement) :=
  p.statements.map .ok ++
    match p.outcome label with
    | .ok _ => []
    | .error e => [.error e]

variable {label : String} {n : Nat} {line : List Char} {lines : List (List Char)}

@[simp] theorem readLines_nil (label : String) (p : Progress) (n : Nat) :
    p.readLines label n [] = p := rfl

theorem readLines_cons (label : String) (p : Progress) (n : Nat) (line : List Char)
    (lines : List (List Char)) :
    p.readLines label n (line :: lines) =
      (p.readLine label (line, n + 1)).readLines label (n + 1) lines := rfl

theorem readLines_error (label : String) (statements : List Statement) (e : SyntaxError) (n : Nat)
    (lines : List (List Char)) :
    readLines label ⟨statements, .error e⟩ n lines = ⟨statements, .error e⟩ := by
  induction lines generalizing n with
  | nil => rfl
  | cons line lines ih => exact ih (n + 1)

theorem readLines_prepend (label : String) (done : List Statement) (p : Progress) (n : Nat)
    (lines : List (List Char)) :
    readLines label { p with statements := done ++ p.statements } n lines =
      { p.readLines label n lines with
        statements := done ++ (p.readLines label n lines).statements } := by
  induction lines generalizing p n with
  | nil => rfl
  | cons line lines ih =>
      have hone : readLine label { p with statements := done ++ p.statements } (line, n + 1) =
          { p.readLine label (line, n + 1) with
            statements := done ++ (p.readLine label (line, n + 1)).statements } := by
        obtain ⟨statements, scanner⟩ := p
        cases scanner with
        | error e => rfl
        | ok s =>
            simp only [readLine]
            cases s.step label (n + 1) line with
            | error e => rfl
            | ok result => simp only [List.append_assoc]
      rw [readLines_cons, readLines_cons, hone, ih]

theorem readLines_of_step {s next : Scanner} {statements : List Statement}
    (h : s.step label (n + 1) line = .ok (next, statements)) (lines : List (List Char)) :
    (start s).readLines label n (line :: lines) =
      { (start next).readLines label (n + 1) lines with
        statements := statements ++ ((start next).readLines label (n + 1) lines).statements } := by
  have hone : (start s).readLine label (line, n + 1) =
      { start next with statements := statements ++ (start next).statements } := by
    simp [start, readLine, h]
  rw [readLines_cons, hone, readLines_prepend]

theorem readLines_of_step_error {s : Scanner} {e : SyntaxError}
    (h : s.step label (n + 1) line = .error e) (lines : List (List Char)) :
    (start s).readLines label n (line :: lines) = ⟨[], .error e⟩ := by
  have hone : (start s).readLine label (line, n + 1) = ⟨[], .error e⟩ := by
    simp [start, readLine, h]
  rw [readLines_cons, hone, readLines_error]

theorem lastLine_readLines {s next : Scanner} (hs : s.lastLine = n)
    (h : ((start s).readLines label n lines).scanner = .ok next) :
    next.lastLine = n + lines.length := by
  induction lines generalizing s n with
  | nil =>
      obtain rfl := Except.ok.inj h
      exact hs
  | cons line lines ih =>
      cases hstep : s.step label (n + 1) line with
      | error e =>
          rw [readLines_of_step_error hstep] at h
          cases h
      | ok result =>
          rw [readLines_of_step hstep] at h
          rw [ih (Scanner.lastLine_step hstep) h, List.length_cons]
          omega

theorem exists_of_readLines_error {s : Scanner} {e : SyntaxError}
    (h : ((start s).readLines label n lines).scanner = .error e) :
    ∃ before line after s', lines = before ++ line :: after ∧
      ((start s).readLines label n before).scanner = .ok s' ∧
      s'.step label (n + before.length + 1) line = .error e ∧
      ((start s).readLines label n lines).statements =
        ((start s).readLines label n before).statements := by
  induction lines generalizing s n with
  | nil => cases h
  | cons line lines ih =>
      cases hstep : s.step label (n + 1) line with
      | error e' =>
          rw [readLines_of_step_error hstep] at h ⊢
          obtain rfl := Except.error.inj h
          exact ⟨[], line, lines, s, rfl, rfl, hstep, rfl⟩
      | ok result =>
          rw [readLines_of_step hstep] at h ⊢
          obtain ⟨before, faulty, after, s', rfl, hbefore, hfault, hstatements⟩ := ih h
          refine ⟨line :: before, faulty, after, s', rfl, ?_, ?_, ?_⟩
          · rw [readLines_of_step hstep]
            exact hbefore
          · rw [List.length_cons, ← hfault]
            congr 1
            omega
          · rw [readLines_of_step hstep]
            exact congrArg (result.2 ++ ·) hstatements

/-- Reading a definition at once gives the statements of the fold, or its fault. -/
theorem ofLines_eq_outcome (label : String) (s : Scanner) (n : Nat) (lines : List (List Char)) :
    Definition.ofLines label s n lines =
      (((start s).readLines label n lines).outcome label).map fun name? =>
        ⟨name?, ((start s).readLines label n lines).statements⟩ := by
  induction lines generalizing s n with
  | nil =>
      have houtcome : ((start s).readLines label n []).outcome label = s.finish label := rfl
      rw [Definition.ofLines, houtcome]
      cases s.finish label <;> rfl
  | cons line lines ih =>
      rw [Definition.ofLines]
      cases hstep : s.step label (n + 1) line with
      | error e =>
          rw [readLines_of_step_error hstep]
          rfl
      | ok result =>
          rw [readLines_of_step hstep]
          simp only [bind, Except.bind, ih, outcome]
          cases ((start result.1).readLines label (n + 1) lines).scanner with
          | error e => rfl
          | ok s' =>
              change (((s'.finish label).map _).bind _) = (s'.finish label).map _
              cases s'.finish label <;> rfl

end Progress

namespace StatementStream

def after (t : StatementStream) : Nat → StatementStream
  | 0 => t
  | n + 1 => t.next.2.after n

def remaining (t : StatementStream) : List (Except SyntaxError Statement) :=
  t.pending.map .ok ++
    match t.status with
    | .scanning s => ((Progress.start s).readLines t.label t.lineCount t.unread).items t.label
    | .finished _ | .failed => []

def finalName? (t : StatementStream) : Option String :=
  match t.status with
  | .scanning s =>
      (((Progress.start s).readLines t.label t.lineCount t.unread).outcome t.label).toOption.join
  | .finished name? => name?
  | .failed => none

/-- What the next answer is, and what it leaves of the answers and of the final name. -/
structure Answers (answer? : Option (Except SyntaxError Statement)) (t : StatementStream)
    (remaining : List (Except SyntaxError Statement)) (name? : Option String) : Prop where
  answer : answer? = remaining.head?
  remaining : t.remaining = remaining.tail
  finalName : t.finalName? = name?
  declaredName : answer? = none → t.declaredName? = name?

theorem answers_pull (label : String) (s : Scanner) (n : Nat) (unread : List (List Char)) :
    Answers (pull label s n unread).1 (pull label s n unread).2
      (((Progress.start s).readLines label n unread).items label)
      (((Progress.start s).readLines label n unread).outcome label).toOption.join := by
  induction unread generalizing s n with
  | nil =>
      rw [pull, Progress.readLines_nil, Progress.items, Progress.outcome, Progress.start]
      simp only [Except.bind]
      cases s.finish label with
      | error e => exact ⟨rfl, rfl, rfl, fun h => by cases h⟩
      | ok name? => exact ⟨rfl, rfl, rfl, fun _ => rfl⟩
  | cons line unread ih =>
      rw [pull]
      cases hstep : s.step label (n + 1) line with
      | error e =>
          rw [Progress.readLines_of_step_error hstep]
          exact ⟨rfl, rfl, rfl, fun h => by cases h⟩
      | ok result =>
          obtain ⟨next, statements⟩ := result
          rw [Progress.readLines_of_step hstep]
          cases statements with
          | nil => exact ih next (n + 1)
          | cons statement more =>
              refine ⟨rfl, ?_, rfl, fun h => by cases h⟩
              simp [StatementStream.remaining, Progress.items, Progress.outcome]

theorem answers_next (t : StatementStream) :
    Answers t.next.1 t.next.2 t.remaining t.finalName? := by
  obtain ⟨label, unread, lineCount, pending, status⟩ := t
  cases pending with
  | cons statement more => exact ⟨rfl, rfl, rfl, fun h => by cases h⟩
  | nil =>
      cases status with
      | scanning s => exact answers_pull label s lineCount unread
      | finished name? => exact ⟨rfl, rfl, rfl, fun _ => rfl⟩
      | failed => exact ⟨rfl, rfl, rfl, fun _ => rfl⟩

theorem next_after (t : StatementStream) (n : Nat) : (t.after n).next.1 = t.remaining[n]? := by
  induction n generalizing t with
  | zero => rw [after, (answers_next t).answer, List.head?_eq_getElem?]
  | succ n ih =>
      rw [after, ih, (answers_next t).remaining, List.getElem?_tail]

theorem finalName?_after (t : StatementStream) (n : Nat) : (t.after n).finalName? = t.finalName? := by
  induction n generalizing t with
  | zero => rfl
  | succ n ih => rw [after, ih, (answers_next t).finalName]

theorem after_succ (t : StatementStream) (n : Nat) : t.after (n + 1) = (t.after n).next.2 := by
  induction n generalizing t with
  | zero => rfl
  | succ n ih => rw [after, ih, after]

theorem declaredName?_after {t : StatementStream} {n : Nat} (h : t.remaining.length < n) :
    (t.after n).declaredName? = t.finalName? := by
  obtain ⟨m, rfl⟩ : ∃ m, n = m + 1 := ⟨n - 1, by omega⟩
  have hnone : (t.after m).next.1 = none := by
    rw [next_after, List.getElem?_eq_none_iff]
    omega
  rw [after_succ, (answers_next (t.after m)).declaredName hnone, finalName?_after]

/-- The answers of the stream are the statements of the fold over all lines, then its fault if
there is one, then nothing. What is read at once is the same: all the statements with the name that
the stream knows in the end, or that fault. The fault is that of the first line that cannot be
read, and names this line; if all lines can be read, it names the last of them. -/
theorem next_after_ofText (label text : String) :
    let lines := Text.lines text.toList
    let p := Progress.ofLines label lines
    (∀ n, ((ofText label text).after n).next.1 = (p.items label)[n]?) ∧
      (∀ n, (p.items label).length < n →
        ((ofText label text).after n).declaredName? = (p.outcome label).toOption.join) ∧
      Definition.ofText label text =
        (p.outcome label).map (fun name? => ⟨name?, p.statements⟩) ∧
      ∀ e, p.outcome label = .error e →
        (∃ before line after s, lines = before ++ line :: after ∧
          (Progress.ofLines label before).scanner = .ok s ∧
          s.step label (before.length + 1) line = .error e ∧
          p.statements = (Progress.ofLines label before).statements ∧
          e.line = before.length + 1) ∨
        ∃ s, p.scanner = .ok s ∧ s.finish label = .error e ∧ e.line = max lines.length 1 := by
  intro lines p
  refine ⟨next_after _, fun n hn => declaredName?_after hn,
    Progress.ofLines_eq_outcome label .initial 0 lines, fun e he => ?_⟩
  cases hscanner : p.scanner with
  | error e' =>
      obtain rfl : e' = e := by
        rw [Progress.outcome, hscanner] at he
        exact Except.error.inj he
      obtain ⟨before, line, after, s, hlines, hbefore, hstep, hstatements⟩ :=
        Progress.exists_of_readLines_error hscanner
      rw [Nat.zero_add] at hstep
      exact .inl ⟨before, line, after, s, hlines, hbefore, hstep, hstatements,
        Scanner.line_of_step_error hstep⟩
  | ok s =>
      have hfinish : s.finish label = .error e := by
        rw [Progress.outcome, hscanner] at he
        exact he
      have hlast : s.lastLine = 0 + lines.length :=
        Progress.lastLine_readLines (s := .initial) rfl hscanner
      rw [Nat.zero_add] at hlast
      refine .inr ⟨s, rfl, hfinish, ?_⟩
      rw [Scanner.line_of_finish_error hfinish, hlast]

end StatementStream

end EntityModel
