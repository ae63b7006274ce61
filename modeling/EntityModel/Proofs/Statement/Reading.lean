import EntityModel.Proofs.Statement.Nesting
import EntityModel.Statement.Scanner

/-!
# Reading in runs

What the scanner makes of a run of characters of one sort: layout, a declaration, an element.
-/

namespace EntityModel

namespace Block

def pushAll (b : Block) (line : Nat) (cs : List Char) : Block := cs.foldl (·.push line) b

@[simp] theorem pushAll_cons (b : Block) (line : Nat) (c : Char) (cs : List Char) :
    b.pushAll line (c :: cs) = (b.push line c).pushAll line cs := rfl

theorem pushAll_depth (b : Block) (depth line : Nat) (cs : List Char) :
    { b with depth := depth }.pushAll line cs = { b.pushAll line cs with depth := depth } := by
  induction cs generalizing b with
  | nil => rfl
  | cons c cs ih => exact ih (b.push line c)

theorem push_ne_empty (b : Block) (line : Nat) (c : Char) : (b.push line c).element ≠ "" := by
  simp [push]

theorem pushAll_of_ne_empty {b : Block} (h : b.element ≠ "") (line : Nat) (cs : List Char) :
    b.pushAll line cs = { b with element := b.element ++ String.ofList cs } := by
  induction cs generalizing b with
  | nil => simp [pushAll]
  | cons c cs ih =>
      have hpush : b.push line c = { b with element := b.element.push c } := by simp [push, h]
      have htext : b.element.push c ++ String.ofList cs = b.element ++ String.ofList (c :: cs) := by
        simp [← String.toList_inj]
      rw [pushAll_cons, ih (push_ne_empty b line c), hpush, htext]

theorem pushAll_of_empty {b : Block} (h : b.element = "") (line : Nat) (c : Char)
    (cs : List Char) : b.pushAll line (c :: cs) = ⟨String.ofList (c :: cs), line, b.depth⟩ := by
  have hpush : b.push line c = ⟨String.singleton c, line, b.depth⟩ := by simp [push, h]
  have htext : String.singleton c ++ String.ofList cs = String.ofList (c :: cs) := by
    simp
  rw [pushAll_cons, pushAll_of_ne_empty (push_ne_empty b line c), hpush, htext]

end Block

namespace Scanner

variable {s : Scanner} {line : Nat}

theorem endName_of_body (h : s.phase = .body) : s.endName = s := by simp [endName, h]

theorem chars_nil_of_body (h : s.phase = .body) : s.chars line none [] = .ok (s, []) := by
  simp [chars, endName_of_body h]

theorem chars_cons_layout {c : Char} (hc : Text.isLayout c = true) (rest : List Char) :
    s.chars line none (c :: rest) = s.endName.chars line none rest := by
  rw [chars, if_neg (by simp), if_pos hc]

theorem chars_layout (h : s.phase = .body) {c : Char} (hc : Text.isLayout c = true)
    (rest : List Char) : s.chars line none (c :: rest) = s.chars line none rest := by
  rw [chars_cons_layout hc, endName_of_body h]

theorem chars_char {next : Scanner} {statement? : Option Statement} {c : Char} {rest : List Char}
    (hl : Text.isLayout c = false) (hc : c = '/' → rest.head? ≠ some '/')
    (h : s.char line c = .ok (next, statement?)) :
    s.chars line none (c :: rest) =
      (next.chars line (Text.quoteAfter none c) rest).map fun (last, statements) =>
        (last, statement?.toList ++ statements) := by
  have hcomment : ¬(c = '/' ∧ rest.head? = some '/') := fun hr => hc hr.1 hr.2
  rw [chars]
  simp only [Option.isSome_none, Bool.false_eq_true, if_false, hl, Bool.and_eq_true,
    decide_eq_true_eq, hcomment, h]
  change (next.chars line (Text.quoteAfter none c) rest >>= fun (last, statements) =>
    pure (last, statement?.toList ++ statements)) = _
  cases next.chars line (Text.quoteAfter none c) rest <;> rfl

theorem chars_char_none {next : Scanner} {c : Char} {rest : List Char}
    (hl : Text.isLayout c = false) (hc : c = '/' → rest.head? ≠ some '/')
    (h : s.char line c = .ok (next, none)) :
    s.chars line none (c :: rest) = next.chars line (Text.quoteAfter none c) rest := by
  rw [chars_char hl hc h]
  cases next.chars line (Text.quoteAfter none c) rest <;> rfl

theorem char_outside_block (hs : s.phase = .body) (hb : s.draft.block? = none) (c : Char) :
    s.char line c = s.bodyChar line c := by
  simp only [char, hs, hb]

theorem step_of_chars {cs : List Char} {result : Scanner × List Statement}
    (h : { s with lastLine := line }.chars line none (withoutByteOrderMark line cs) = .ok result)
    (label : String) : s.step label line cs = .ok result := by
  rw [step, h]

theorem withoutByteOrderMark_of_ne_one (h : line ≠ 1) (cs : List Char) :
    withoutByteOrderMark line cs = cs := by
  simp [withoutByteOrderMark, h]

def setBlock (s : Scanner) (b? : Option Block) : Scanner :=
  { s with draft := { s.draft with block? := b? } }

@[simp] theorem phase_setBlock (s : Scanner) (b? : Option Block) :
    (s.setBlock b?).phase = s.phase := rfl

theorem char_setBlock (hs : s.phase = .body) {b : Block} {c : Char} {d : Draft}
    (h : blockChar { s.draft with block? := some b } b line c = .ok d) :
    (s.setBlock (some b)).char line c = .ok ({ s with draft := d }, none) := by
  simp only [char, phase_setBlock, hs]
  simp only [setBlock, h]
  rfl

theorem blockChar_of_after? {d : Draft} {b : Block} {n next : Nesting} {c : Char}
    (hd : b.depth = n.depth) (hq : n.quote? = none) (h : n.after? c = some next) :
    blockChar d b line c =
      .ok { d with block? := some { b.push line c with depth := next.depth } } := by
  fun_cases Nesting.after? n c <;> simp_all [Nesting.after?, blockChar]
  case case3 | case5 => simp [← h]
  case case7 => rw [← hd]; rfl
  case case12 => rw [← h, ← hd]; rfl

theorem chars_element_char {b : Block} {n next : Nesting} {c : Char} {rest : List Char}
    (hs : s.phase = .body) (hd : b.depth = n.depth) (h : n.after? c = some next)
    (hc : n.quote? = none → c = '/' → rest.head? ≠ some '/') :
    (s.setBlock (some b)).chars line n.quote? (c :: rest) =
      (s.setBlock (some { b.push line c with depth := next.depth })).chars line next.quote?
        rest := by
  cases hq : n.quote? with
  | some q =>
      have hnext : next = { n with quote? := Text.quoteAfter (some q) c } := by
        simpa [Nesting.after?, hq, Nesting.ne_newline_of_after? h, eq_comm] using h
      subst hnext
      have hpush : { b.push line c with depth := n.depth } = b.push line c := by rw [← hd]; rfl
      simp only [chars, Option.isSome_some, if_true, hpush]
      rfl
  | none =>
      have hchar : (s.setBlock (some b)).char line c =
          .ok (s.setBlock (some { b.push line c with depth := next.depth }), none) :=
        char_setBlock hs (blockChar_of_after? hd hq h)
      rw [chars_char_none (Nesting.not_isLayout_of_after? hq h) (hc hq) hchar,
        Nesting.quote?_of_after? h, hq]

end Scanner
end EntityModel
