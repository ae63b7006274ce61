import EntityModel.Proofs.Statement.Tokens

/-!
# Faults of declarations

A declaration is judged when the semicolon after it is read. What is found wrong with it is a fault
of this token: a text is refused for a declaration exactly if this is the first fault among its
tokens, and the error names the line of the token.
-/

namespace EntityModel

/-- The fault is one of a declaration as a whole: it has no type, or its name or its type is none. -/
def SyntaxFault.IsOfDeclaration : SyntaxFault → Prop
  | untypedDeclaration _ | invalidFieldName _ | invalidType _ _ => True
  | _ => False

theorem SyntaxFault.not_isOfDeclaration_of_end {fault : SyntaxFault}
    (h : fault = .unterminatedQuote ∨ fault = .missingBody ∨ fault = .unclosedBody) :
    ¬fault.IsOfDeclaration := by
  rcases h with rfl | rfl | rfl <;> exact not_false

namespace Scanner

/-- The first token that has no meaning where it stands: its line, and what is wrong. Where a quote
or the text ends too early no token is at fault. -/
def fault? (s : Scanner) (open? : Option Char) : List Token → Option (Nat × SyntaxFault)
  | [] => none
  | t :: ts =>
      if open?.isSome then
        if t.char = '\n' then none
        else
          ((s.onLine t.line t.isSpaced).quotedChar t.line t.char).fault?
            (Text.quoteAfter open? t.char) ts
      else if Text.isLayout t.char then none
      else
        match (s.onLine t.line t.isSpaced).char t.line t.char with
        | .error fault => some (t.line, fault)
        | .ok (next, _) => next.fault? (Text.quoteAfter none t.char) ts

theorem fault_of_finish_error {s : Scanner} {label : String} {e : SyntaxError}
    (h : s.finish label = .error e) : e.fault = .missingBody ∨ e.fault = .unclosedBody := by
  rw [finish] at h
  split at h
  · exact .inl (by rw [← Except.error.inj h])
  · exact .inr (by rw [← Except.error.inj h])
  · cases h

end Scanner

namespace Cursor

variable {label : String} {k : Cursor} {s : Scanner} {isSpaced : Bool} {e : SyntaxError}

theorem not_isOfDeclaration_of_finish (h : k.finish label = .error e) :
    ¬e.fault.IsOfDeclaration := by
  apply SyntaxFault.not_isOfDeclaration_of_end
  rw [finish] at h
  split at h
  · exact .inl (by rw [← Except.error.inj h])
  all_goals exact .inr (Scanner.fault_of_finish_error h)

private theorem map_eq_error_iff {ε α β : Type} {f : α → β} {x : Except ε α} {e : ε} :
    x.map f = .error e ↔ x = .error e := by
  cases x <;> simp [Except.map]

theorem readAll_eq_error_iff (h : k.Follows s isSpaced) (he : e.fault.IsOfDeclaration)
    (cs : List Char) :
    k.readAll label cs = .error e ↔ e.entity = label ∧
      s.fault? k.cover.quote? (Token.scan k.cover k.line isSpaced cs) = some (e.line, e.fault) := by
  induction cs generalizing k s isSpaced with
  | nil =>
      have hnot : k.readAll label [] ≠ .error e := by
        rw [readAll, ne_eq, map_eq_error_iff]
        intro hfinish
        exact not_isOfDeclaration_of_finish hfinish he
      simp [hnot, Token.scan, Scanner.fault?]
  | cons c rest ih =>
      cases h.scans c rest with
      | dropped hquote hnext hreads hfollows hscan =>
          rw [hreads.readAll_nil, ih hfollows, hscan, hquote, hnext]
      | @quoted q hk hmarked hscan =>
          rw [hscan, hk]
          simp only [Cover.quote?, Scanner.fault?, Option.isSome_some, if_true]
          by_cases hc : c = '\n'
          · have hnot : (⟨label, k.line, .unterminatedQuote⟩ : SyntaxError) ≠ e := by
              rintro rfl
              exact SyntaxFault.not_isOfDeclaration_of_end (.inl rfl) he
            simp [readAll, read, hk, hc, hnot]
          · rw [(Reads.quoted hk hc).readAll_nil, if_neg hc, hmarked, ih (follows_self _ _ _),
              Cover.quote?_ofQuote?]
      | char hk hl hcomment hmarked hscan =>
          rw [hscan, hk]
          simp only [Cover.quote?, Scanner.fault?, hl, Bool.false_eq_true, if_false,
            Option.isSome_none]
          cases hchar : (s.onLine k.line isSpaced).char k.line c with
          | error fault =>
              have hfault := read_error hk hl hcomment (hmarked.symm ▸ hchar) label
              obtain ⟨entity, line, fault'⟩ := e
              simp only [readAll, hfault]
              rw [Except.error.injEq, SyntaxError.mk.injEq, Option.some.injEq, Prod.mk.injEq,
                eq_comm (a := label)]
          | ok result =>
              obtain ⟨next, statement?⟩ := result
              rw [(Reads.char hk hl hcomment (hmarked.symm ▸ hchar)).readAll, map_eq_error_iff]
              simp only [ih (follows_self _ _ _), Cover.quote?_ofQuote?]

end Cursor

namespace Definition

theorem ofText_eq_error_iff_fault {label text : String} {e : SyntaxError}
    (he : e.fault.IsOfDeclaration) :
    ofText label text = .error e ↔ e.entity = label ∧
      Scanner.initial.fault? none (Token.ofText text) = some (e.line, e.fault) := by
  have hstart : Cursor.start.Follows Scanner.initial false := rfl
  rw [ofText_eq_readAll, Cursor.readAll_eq_error_iff hstart he]
  rfl

end Definition

end EntityModel
