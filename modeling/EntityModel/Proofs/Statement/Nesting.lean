import EntityModel.Statement
import EntityModel.Text.Quoted

/-!
# Nesting within an element

Where a character of an element stands: how many parentheses and which quote are open there. An
element is well formed if every character may stand where it does and nothing is left open.
-/

namespace EntityModel

structure Nesting where
  depth : Nat
  quote? : Option Char
deriving Repr, DecidableEq

namespace Nesting

def outside : Nesting := ⟨0, none⟩

/-- The nesting after a character of an element, unless the character may not stand there. Only a
line feed may not stand within quotes. -/
def after? (n : Nesting) (c : Char) : Option Nesting :=
  if n.quote?.isSome then
    if c = '\n' then none else some { n with quote? := Text.quoteAfter n.quote? c }
  else
    match c with
    | '(' => some { n with depth := n.depth + 1 }
    | ')' => if n.depth = 0 then none else some { n with depth := n.depth - 1 }
    | ',' => if n.depth = 0 then none else some n
    | ';' | '\x7b' | '\x7d' => none
    | _ => if Text.isLayout c then none else some { n with quote? := Text.quoteAfter none c }

def afterAll? (n : Nesting) (cs : List Char) : Option Nesting := cs.foldlM after? n

@[simp] theorem afterAll?_nil (n : Nesting) : n.afterAll? [] = some n := rfl

theorem afterAll?_cons_eq_some {n last : Nesting} {c : Char} {cs : List Char} :
    n.afterAll? (c :: cs) = some last ↔ ∃ next, n.after? c = some next ∧
      next.afterAll? cs = some last := by
  rw [afterAll?, List.foldlM_cons]
  exact Option.bind_eq_some_iff

theorem afterAll?_append {n next : Nesting} {cs : List Char} (h : n.afterAll? cs = some next)
    (rest : List Char) : n.afterAll? (cs ++ rest) = next.afterAll? rest := by
  rw [afterAll?] at h
  rw [afterAll?, List.foldlM_append, h]
  rfl

theorem afterAll?_cons {n next : Nesting} {c : Char} (h : n.after? c = some next)
    (cs : List Char) : n.afterAll? (c :: cs) = next.afterAll? cs := by
  rw [afterAll?, List.foldlM_cons, h]
  rfl

theorem not_isLayout_of_after? {n next : Nesting} {c : Char} (hq : n.quote? = none)
    (h : n.after? c = some next) : Text.isLayout c = false := by
  fun_cases after? n c
  case case11 => simp_all [after?]
  case case12 hl _ _ _ _ _ _ => simpa using hl
  all_goals simp_all <;> decide

theorem quote?_of_after? {n next : Nesting} {c : Char} (h : n.after? c = some next) :
    next.quote? = Text.quoteAfter n.quote? c := by
  fun_cases after? n c <;> simp_all [after?]
  case case7 => rfl
  all_goals subst h; rfl

theorem ne_newline_of_after? {n next : Nesting} {c : Char} (h : n.after? c = some next) :
    c ≠ '\n' := by
  rintro rfl
  cases hq : n.quote? with
  | none => exact absurd (not_isLayout_of_after? hq h) (by decide)
  | some q => simp [after?, hq] at h

theorem newline_notMem_of_afterAll? {n last : Nesting} {cs : List Char}
    (h : n.afterAll? cs = some last) : '\n' ∉ cs := by
  induction cs generalizing n with
  | nil => simp
  | cons c cs ih =>
      obtain ⟨next, hnext, hlast⟩ := afterAll?_cons_eq_some.1 h
      rw [List.mem_cons, not_or]
      exact ⟨(ne_newline_of_after? hnext).symm, ih hlast⟩

end Nesting

namespace Element

/-- A text that is not empty, whose quotes and parentheses are balanced, and that outside quotes
has no layout, no semicolon and no brace, and outside parentheses no comma. -/
def IsWellFormed (text : String) : Prop :=
  text ≠ "" ∧ Nesting.outside.afterAll? text.toList = some .outside

instance (text : String) : Decidable (IsWellFormed text) :=
  inferInstanceAs (Decidable (_ ∧ _))

theorem IsWellFormed.exists_cons {text : String} (h : IsWellFormed text) :
    ∃ c cs, text.toList = c :: cs ∧ Text.isLayout c = false := by
  obtain ⟨hne, hall⟩ := h
  cases hcs : text.toList with
  | nil => exact absurd (String.toList_eq_nil_iff.1 hcs) hne
  | cons c cs =>
      rw [hcs] at hall
      obtain ⟨next, hc, -⟩ := Nesting.afterAll?_cons_eq_some.1 hall
      exact ⟨c, cs, rfl, Nesting.not_isLayout_of_after? rfl hc⟩

theorem IsWellFormed.isTagText_eq {text : String} (h : IsWellFormed text) :
    isTagText text = (text.toList.head? == some '#') := by
  obtain ⟨c, cs, hcs, hc⟩ := h.exists_cons
  have hb : Text.isBlank c = false := by
    rw [Text.isLayout, Bool.or_eq_false_iff] at hc
    exact hc.1
  rw [isTagText, Text.trimStart_eq_self (by simp [hcs, hb])]

end Element

end EntityModel
