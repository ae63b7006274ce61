import EntityModel.Proofs.Statement.Layout
import EntityModel.Proofs.Statement.Streaming

/-!
# The declared name between calls

The end of a line ends a name, so that the name which a stream tells between two calls is a whole
one. It tells the same name after each call that follows, until a call answers with a fault: after
a fault no name is known, and none comes back.
-/

namespace EntityModel

namespace Scanner

variable {s next last : Scanner} {line : Nat} {c : Char} {name : String}
  {statement? : Option Statement} {statements : List Statement}

/-- The name has been read: nothing that follows adds to it. -/
structure HasName (s : Scanner) (name : String) : Prop where
  name_eq : s.name = name
  name_ne : name ≠ ""
  nameEnded : s.phase = .preamble → s.nameEnded = true

theorem declaredName?_eq_some_iff : s.declaredName? = some name ↔ s.name = name ∧ name ≠ "" := by
  rw [declaredName?]
  split
  · rename_i hempty
    rw [String.isEmpty_iff] at hempty
    simp only [hempty, reduceCtorEq, false_iff]
    intro h
    exact h.2 h.1.symm
  · rename_i hempty
    rw [String.isEmpty_iff] at hempty
    rw [Option.some.injEq]
    constructor
    · intro h
      exact ⟨h, h ▸ hempty⟩
    · intro h
      exact h.1

theorem HasName.declaredName?_eq (hs : s.HasName name) : s.declaredName? = some name :=
  declaredName?_eq_some_iff.2 ⟨hs.name_eq, hs.name_ne⟩

theorem hasName_endName (hname : s.name = name) (hne : name ≠ "") : s.endName.HasName name := by
  refine ⟨(name_endName s).trans hname, hne, ?_⟩
  intro hphase
  rw [phase_endName] at hphase
  have hnonempty : s.name.isEmpty = false := by
    rw [hname, Bool.eq_false_iff, ne_eq, String.isEmpty_iff]
    exact hne
  simp [endName, hphase, hnonempty]

theorem HasName.endName (hs : s.HasName name) : s.endName.HasName name :=
  hasName_endName hs.name_eq hs.name_ne

theorem HasName.quotedChar (hs : s.HasName name) : (s.quotedChar line c).HasName name :=
  ⟨hs.name_eq, hs.name_ne, hs.nameEnded⟩

theorem HasName.char (hs : s.HasName name) (h : s.char line c = .ok (next, statement?)) :
    next.HasName name := by
  obtain ⟨hname, hne, hended⟩ := hs
  unfold Scanner.char preambleChar bodyChar at h
  simp only [bind, Except.bind, pure, Except.pure] at h
  have hnext : next.name = s.name ∧ next.phase ≠ .preamble := by grind
  exact ⟨hnext.1.trans hname, hne, fun hphase => absurd hphase hnext.2⟩

theorem HasName.chars {open? : Option Char} {cs : List Char} (hs : s.HasName name)
    (h : s.chars line open? cs = .ok (next, statements)) : next.HasName name := by
  obtain ⟨s', hs', rfl⟩ := exists_endName_of_chars (P := fun s => s.HasName name)
    (fun _ hs => hs.endName) (fun _ _ hs => hs.quotedChar) (fun _ _ _ _ hs hread => hs.char hread)
    hs h
  exact hs'.endName

theorem HasName.step {label : String} {cs : List Char} (hs : s.HasName name)
    (h : s.step label line cs = .ok (next, statements)) : next.HasName name := by
  have hmarked : { s with lastLine := line }.HasName name := ⟨hs.name_eq, hs.name_ne, hs.nameEnded⟩
  rw [Scanner.step] at h
  split at h
  · rename_i hchars
    obtain rfl := Except.ok.inj h
    exact hmarked.chars hchars
  · cases h

theorem hasName_of_step {label : String} {cs : List Char}
    (h : s.step label line cs = .ok (next, statements)) (hname : next.declaredName? = some name) :
    next.HasName name := by
  rw [step] at h
  split at h
  · rename_i hchars
    obtain rfl := Except.ok.inj h
    obtain ⟨s', -, rfl⟩ := exists_endName_of_chars (P := fun _ => True)
      (fun _ _ => trivial) (fun _ _ _ => trivial) (fun _ _ _ _ _ _ => trivial) trivial hchars
    rw [declaredName?_eq_some_iff, name_endName] at hname
    exact hasName_endName hname.1 hname.2
  · cases h

theorem HasName.finish {label : String} {name? : Option String} (hs : s.HasName name)
    (h : s.finish label = .ok name?) : name? = some name := by
  rw [Scanner.finish] at h
  split at h
  · cases h
  · cases h
  · rw [← Except.ok.inj h, hs.declaredName?_eq]

end Scanner

namespace StatementStream

def Knows (t : StatementStream) (name : String) : Prop :=
  match t.status with
  | .scanning s => s.HasName name
  | .finished name? => name? = some name
  | .failed => False

variable {t : StatementStream} {name label : String} {s : Scanner} {m n : Nat}
  {answer? : Option (Except SyntaxError Statement)}

theorem Knows.declaredName?_eq (ht : t.Knows name) : t.declaredName? = some name := by
  unfold Knows at ht
  unfold declaredName?
  cases hstatus : t.status with
  | scanning s =>
      rw [hstatus] at ht
      exact ht.declaredName?_eq
  | finished name? =>
      rw [hstatus] at ht
      exact ht
  | failed =>
      rw [hstatus] at ht
      exact ht.elim

def IsFault (answer? : Option (Except SyntaxError Statement)) : Prop :=
  ∃ e, answer? = some (.error e)

theorem not_isFault_none : ¬IsFault none := by
  intro h
  obtain ⟨e, he⟩ := h
  cases he

theorem not_isFault_ok (statement : Statement) : ¬IsFault (some (.ok statement)) := by
  intro h
  obtain ⟨e, he⟩ := h
  cases he

inductive Keeps (name : String) (answer? : Option (Except SyntaxError Statement))
    (t : StatementStream) : Prop where
  | known (h : ¬IsFault answer?) (ht : t.Knows name)
  | lost (h : IsFault answer?) (ht : t.status = .failed)

theorem keeps_pull (hs : s.HasName name) (lineCount : Nat) (unread : List (List Char)) :
    Keeps name (pull label s lineCount unread).1 (pull label s lineCount unread).2 := by
  induction unread generalizing s lineCount with
  | nil =>
      rw [pull]
      cases hfinish : s.finish label with
      | error e => exact .lost ⟨e, rfl⟩ rfl
      | ok name? => exact .known not_isFault_none (hs.finish hfinish)
  | cons line unread ih =>
      rw [pull]
      cases hstep : s.step label (lineCount + 1) line with
      | error e => exact .lost ⟨e, rfl⟩ rfl
      | ok result =>
          obtain ⟨next, statements⟩ := result
          have hnext : next.HasName name := hs.step hstep
          cases statements with
          | nil => exact ih hnext (lineCount + 1)
          | cons statement more => exact .known (not_isFault_ok statement) hnext

theorem Knows.keeps_next (ht : t.Knows name) : Keeps name t.next.1 t.next.2 := by
  obtain ⟨label, unread, lineCount, pending, status⟩ := t
  cases pending with
  | cons statement more => exact .known (not_isFault_ok statement) ht
  | nil =>
      cases status with
      | scanning s => exact keeps_pull ht lineCount unread
      | finished name? => exact .known not_isFault_none ht
      | failed => exact ht.elim

theorem status_next_of_failed (ht : t.status = .failed) : t.next.2.status = .failed := by
  obtain ⟨label, unread, lineCount, pending, status⟩ := t
  obtain rfl : status = .failed := ht
  cases pending <;> rfl

theorem Knows.keeps_after (ht : t.Knows name) (n : Nat) :
    (∀ k < n, ¬IsFault (t.after k).next.1) ∧ (t.after n).Knows name ∨
      (∃ k < n, IsFault (t.after k).next.1) ∧ (t.after n).status = .failed := by
  induction n with
  | zero => exact .inl ⟨fun k hk => absurd hk (Nat.not_lt_zero k), ht⟩
  | succ n ih =>
      rw [after_succ]
      rcases ih with ⟨hcalls, hknows⟩ | ⟨⟨k, hk, hfault⟩, hfailed⟩
      · cases hknows.keeps_next with
        | known hcall hnext =>
            refine .inl ⟨fun k hk => ?_, hnext⟩
            rcases Nat.lt_succ_iff_lt_or_eq.1 hk with hlt | rfl
            · exact hcalls k hlt
            · exact hcall
        | lost hcall hnext => exact .inr ⟨⟨n, Nat.lt_succ_self n, hcall⟩, hnext⟩
      · exact .inr ⟨⟨k, Nat.lt_succ_of_lt hk, hfault⟩, status_next_of_failed hfailed⟩

def TellsWhole (t : StatementStream) : Prop :=
  ∀ name, t.declaredName? = some name → t.Knows name

theorem tellsWhole_ofText (label text : String) : (ofText label text).TellsWhole := by
  intro name hname
  cases hname

theorem tellsWhole_pull (label : String) (s : Scanner) (lineCount : Nat)
    (unread : List (List Char)) : (pull label s lineCount unread).2.TellsWhole := by
  induction unread generalizing s lineCount with
  | nil =>
      intro name hname
      rw [pull] at hname ⊢
      cases hfinish : s.finish label with
      | error e =>
          rw [hfinish] at hname
          cases hname
      | ok name? =>
          rw [hfinish] at hname
          exact hname
  | cons line unread ih =>
      rw [pull]
      cases hstep : s.step label (lineCount + 1) line with
      | error e =>
          intro name hname
          cases hname
      | ok result =>
          obtain ⟨next, statements⟩ := result
          cases statements with
          | nil => exact ih next (lineCount + 1)
          | cons statement more =>
              intro name hname
              exact Scanner.hasName_of_step hstep hname

theorem TellsWhole.next (ht : t.TellsWhole) : t.next.2.TellsWhole := by
  obtain ⟨label, unread, lineCount, pending, status⟩ := t
  cases pending with
  | cons statement more => exact ht
  | nil =>
      cases status with
      | scanning s => exact tellsWhole_pull label s lineCount unread
      | finished name? => exact ht
      | failed => exact ht

theorem TellsWhole.after (ht : t.TellsWhole) (n : Nat) : (t.after n).TellsWhole := by
  induction n with
  | zero => exact ht
  | succ n ih =>
      rw [after_succ]
      exact ih.next

theorem after_add (t : StatementStream) (m n : Nat) : t.after (m + n) = (t.after m).after n := by
  induction n with
  | zero => rfl
  | succ n ih => rw [← Nat.add_assoc, after_succ, after_succ, ih]

/-- A name that is known after some call is the same after each later call as long as no call in
between answers with a fault, and after a fault it is no longer known. -/
theorem declaredName?_after_of_le {label text name : String} {m n : Nat} (hmn : m ≤ n)
    (hname : ((ofText label text).after m).declaredName? = some name) :
    (∀ k, m ≤ k → k < n → ¬IsFault ((ofText label text).after k).next.1) ∧
        ((ofText label text).after n).declaredName? = some name ∨
      (∃ k, m ≤ k ∧ k < n ∧ IsFault ((ofText label text).after k).next.1) ∧
        ((ofText label text).after n).declaredName? = none := by
  have hknows : ((ofText label text).after m).Knows name :=
    (tellsWhole_ofText label text).after m name hname
  obtain ⟨i, rfl⟩ : ∃ i, n = m + i := ⟨n - m, by omega⟩
  rcases hknows.keeps_after i with ⟨hcalls, hlast⟩ | ⟨⟨k, hk, hfault⟩, hfailed⟩
  · refine .inl ⟨?_, ?_⟩
    · intro k hmk hk
      have hcall := hcalls (k - m) (by omega)
      rwa [← after_add, Nat.add_sub_cancel' hmk] at hcall
    · rw [after_add]
      exact hlast.declaredName?_eq
  · refine .inr ⟨⟨m + k, Nat.le_add_right m k, Nat.add_lt_add_left hk m, ?_⟩, ?_⟩
    · rwa [after_add]
    · rw [after_add, declaredName?, hfailed]

theorem declaredName?_after_of_le_book :
    ((ofText "" "Book\n\x7b id: int;\n  title: string;\n\"\n\x7d").after 1).declaredName? =
        some "Book" ∧
      ((ofText "" "Book\n\x7b id: int;\n  title: string;\n\"\n\x7d").after 2).declaredName? =
        some "Book" := by
  have hfirst : ((ofText "" "Book\n\x7b id: int;\n  title: string;\n\"\n\x7d").after
      1).declaredName? = some "Book" := by decide +kernel
  refine ⟨hfirst, ?_⟩
  rcases declaredName?_after_of_le (n := 2) (by omega) hfirst with ⟨-, hsecond⟩ | ⟨-, hnone⟩
  · exact hsecond
  · have hsome : ((ofText "" "Book\n\x7b id: int;\n  title: string;\n\"\n\x7d").after
        2).declaredName? ≠ none := by decide +kernel
    exact absurd hnone hsome

/-- A fault takes back the name that was told before it. -/
theorem not_forall_declaredName?_after :
    ¬∀ (label text name : String) (m n : Nat), m ≤ n →
      ((ofText label text).after m).declaredName? = some name →
      ((ofText label text).after n).declaredName? = some name := by
  intro h
  have hfirst : ((ofText "Book" "Book \x7b\n id : int ;\n '\n\x7d").after 1).declaredName? =
      some "Book" := by decide +kernel
  have hsecond := h _ _ _ 1 2 (by omega) hfirst
  exact absurd hsecond (by decide +kernel)

end StatementStream

end EntityModel
