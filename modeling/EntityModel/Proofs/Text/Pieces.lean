import Mathlib.Data.List.Basic
import EntityModel.Proofs.Text.Spans

/-!
# Pieces between commas

A text falls apart at the commas that no quoted span holds, and in one way only. The recursion that
cuts it goes character by character; the pieces are described here by the commas between them.
-/

namespace EntityModel.Text

def IsBetween (pieces : List (List Char)) (before after : List Char) : Prop :=
  ∃ left right, left ≠ [] ∧ right ≠ [] ∧ left ++ right = pieces ∧
    [','].intercalate left = before ∧ [','].intercalate right = after

/-- The text is the pieces with commas between them, and a comma of the text stands between two of
them if and only if no span is open there; `open?` is the quote open at the start. -/
structure IsCut (open? : Option Char) (pieces : List (List Char)) (cs : List Char) : Prop where
  ne_nil : pieces ≠ []
  joined : [','].intercalate pieces = cs
  outside_iff : ∀ before after, before ++ ',' :: after = cs →
    (before.foldl quoteAfter open? = none ↔ IsBetween pieces before after)

private theorem intercalate_nil_cons {pieces : List (List Char)} (h : pieces ≠ []) :
    [','].intercalate ([] :: pieces) = ',' :: [','].intercalate pieces := by
  cases pieces with
  | nil => exact absurd rfl h
  | cons piece pieces => simp

private theorem intercalate_cons_cons_char (c : Char) (piece : List Char)
    (pieces : List (List Char)) :
    [','].intercalate ((c :: piece) :: pieces) = c :: [','].intercalate (piece :: pieces) := by
  cases pieces <;> simp

private theorem eq_of_intercalate_eq_nil {pieces : List (List Char)} (hne : pieces ≠ [])
    (h : [','].intercalate pieces = []) : pieces = [[]] := by
  cases pieces with
  | nil => exact absurd rfl hne
  | cons piece pieces =>
      cases pieces with
      | nil => simpa using h
      | cons next pieces => simp at h

theorem isBetween_nil_cons {pieces : List (List Char)} {before after : List Char} :
    IsBetween ([] :: pieces) (',' :: before) after ↔ IsBetween pieces before after := by
  constructor
  · intro h
    obtain ⟨left, right, hleft, hright, happend, hbefore, hafter⟩ := h
    cases left with
    | nil => exact absurd rfl hleft
    | cons first left =>
        simp only [List.cons_append, List.cons.injEq] at happend
        rw [happend.1] at hbefore
        have hne : left ≠ [] := by
          intro hnil
          simp [hnil] at hbefore
        rw [intercalate_nil_cons hne, List.cons.injEq] at hbefore
        exact ⟨left, right, hne, hright, happend.2, hbefore.2, hafter⟩
  · intro h
    obtain ⟨left, right, hleft, hright, happend, hbefore, hafter⟩ := h
    refine ⟨[] :: left, right, by simp, hright, by simp [happend], ?_, hafter⟩
    rw [intercalate_nil_cons hleft, hbefore]

theorem isBetween_cons_cons {c : Char} {piece : List Char} {pieces : List (List Char)}
    {before after : List Char} :
    IsBetween ((c :: piece) :: pieces) (c :: before) after ↔
      IsBetween (piece :: pieces) before after := by
  constructor
  · intro h
    obtain ⟨left, right, hleft, hright, happend, hbefore, hafter⟩ := h
    cases left with
    | nil => exact absurd rfl hleft
    | cons first left =>
        simp only [List.cons_append, List.cons.injEq] at happend
        rw [happend.1, intercalate_cons_cons_char, List.cons.injEq] at hbefore
        exact ⟨piece :: left, right, by simp, hright, by simp [happend.2], hbefore.2, hafter⟩
  · intro h
    obtain ⟨left, right, hleft, hright, happend, hbefore, hafter⟩ := h
    cases left with
    | nil => exact absurd rfl hleft
    | cons first left =>
        simp only [List.cons_append, List.cons.injEq] at happend
        refine ⟨(c :: piece) :: left, right, by simp, hright, by simp [happend.2], ?_, hafter⟩
        rw [intercalate_cons_cons_char, ← happend.1, hbefore]

private theorem not_isBetween_nil {c : Char} {piece : List Char} {pieces : List (List Char)}
    {after : List Char} : ¬ IsBetween ((c :: piece) :: pieces) [] after := by
  intro h
  obtain ⟨left, right, hleft, -, happend, hbefore, -⟩ := h
  have hsingle := eq_of_intercalate_eq_nil hleft hbefore
  simp [hsingle] at happend

theorem isCut_nil {open? : Option Char} {pieces : List (List Char)} :
    IsCut open? pieces [] ↔ pieces = [[]] := by
  constructor
  · intro h
    exact eq_of_intercalate_eq_nil h.ne_nil h.joined
  · intro h
    subst h
    exact ⟨by simp, by simp, by simp⟩

theorem isCut_comma {pieces : List (List Char)} {rest : List Char} :
    IsCut none pieces (',' :: rest) ↔ ∃ more, pieces = [] :: more ∧ IsCut none more rest := by
  constructor
  · intro h
    have hfirst : IsBetween pieces [] rest := (h.outside_iff [] rest rfl).1 rfl
    obtain ⟨left, right, hleft, hright, happend, hbefore, -⟩ := hfirst
    have hsingle := eq_of_intercalate_eq_nil hleft hbefore
    rw [hsingle, List.singleton_append] at happend
    subst happend
    have hjoined := h.joined
    rw [intercalate_nil_cons hright, List.cons.injEq] at hjoined
    refine ⟨right, rfl, hright, hjoined.2, ?_⟩
    intro before after hcs
    rw [← isBetween_nil_cons, ← h.outside_iff (',' :: before) after (by simp [hcs])]
    rfl
  · intro h
    obtain ⟨more, hpieces, hmore⟩ := h
    subst hpieces
    refine ⟨by simp, by rw [intercalate_nil_cons hmore.ne_nil, hmore.joined], ?_⟩
    intro before after hcs
    cases before with
    | nil =>
        rw [List.nil_append, List.cons.injEq] at hcs
        have hbetween : IsBetween ([] :: more) [] after :=
          ⟨[[]], more, by simp, hmore.ne_nil, rfl, rfl, hmore.joined.trans hcs.2.symm⟩
        simp [hbetween]
    | cons c before =>
        rw [List.cons_append, List.cons.injEq] at hcs
        rw [hcs.1, isBetween_nil_cons, ← hmore.outside_iff before after hcs.2]
        rfl

theorem isCut_char {open? : Option Char} {c : Char} (hc : open? = none → c ≠ ',')
    {pieces : List (List Char)} {rest : List Char} :
    IsCut open? pieces (c :: rest) ↔
      ∃ piece more, pieces = (c :: piece) :: more ∧
        IsCut (quoteAfter open? c) (piece :: more) rest := by
  constructor
  · intro h
    have hjoined := h.joined
    cases pieces with
    | nil => exact absurd rfl h.ne_nil
    | cons first more =>
        cases first with
        | nil =>
            -- the text begins with a comma, between the empty piece and the next one
            have hne : more ≠ [] := by
              intro hnil
              simp [hnil] at hjoined
            rw [intercalate_nil_cons hne, List.cons.injEq] at hjoined
            have hbetween : IsBetween ([] :: more) [] rest :=
              ⟨[[]], more, by simp, hne, rfl, rfl, hjoined.2⟩
            have hnone := (h.outside_iff [] rest (by rw [hjoined.1, List.nil_append])).2 hbetween
            exact absurd hjoined.1.symm (hc hnone)
        | cons d piece =>
            rw [intercalate_cons_cons_char, List.cons.injEq] at hjoined
            rw [hjoined.1]
            refine ⟨piece, more, rfl, by simp, hjoined.2, ?_⟩
            intro before after hcs
            rw [← isBetween_cons_cons (c := d),
              ← h.outside_iff (d :: before) after (by simp [hcs, hjoined.1]), List.foldl_cons,
              hjoined.1]
  · intro h
    obtain ⟨piece, more, hpieces, hmore⟩ := h
    subst hpieces
    refine ⟨by simp, by rw [intercalate_cons_cons_char, hmore.joined], ?_⟩
    intro before after hcs
    cases before with
    | nil =>
        rw [List.nil_append, List.cons.injEq] at hcs
        have hopen : open? ≠ none := fun hnone => hc hnone hcs.1.symm
        simp [hopen, not_isBetween_nil]
    | cons d before =>
        rw [List.cons_append, List.cons.injEq] at hcs
        rw [hcs.1, isBetween_cons_cons, ← hmore.outside_iff before after hcs.2]
        rfl

theorem cutAtCommas_ne_nil (open? : Option Char) (cs : List Char) : cutAtCommas open? cs ≠ [] := by
  fun_cases cutAtCommas open? cs <;> simp

theorem cutAtCommas_char {open? : Option Char} {c : Char} (hc : open? = none → c ≠ ',')
    {rest piece : List Char} {more : List (List Char)} :
    cutAtCommas open? (c :: rest) = (c :: piece) :: more ↔
      cutAtCommas (quoteAfter open? c) rest = piece :: more := by
  have hcomma : (open?.isNone && c == ',') = false := by
    cases open? with
    | none => simpa using hc rfl
    | some q => rfl
  cases hrest : cutAtCommas (quoteAfter open? c) rest with
  | nil => exact absurd hrest (cutAtCommas_ne_nil _ _)
  | cons first others => simp [cutAtCommas, hcomma, hrest]

/-- A text is cut in one way only: at its commas outside all spans. -/
theorem isCut_iff {open? : Option Char} {pieces : List (List Char)} {cs : List Char} :
    IsCut open? pieces cs ↔ cutAtCommas open? cs = pieces := by
  induction cs generalizing open? pieces with
  | nil =>
      rw [isCut_nil, cutAtCommas]
      exact eq_comm
  | cons c rest ih =>
      by_cases hcomma : open? = none ∧ c = ','
      · obtain ⟨hopen, hc⟩ := hcomma
        subst hopen hc
        have hcut : cutAtCommas none (',' :: rest) = [] :: cutAtCommas none rest := rfl
        rw [isCut_comma, hcut]
        simp only [ih]
        constructor
        · intro h
          obtain ⟨more, hpieces, hmore⟩ := h
          rw [hpieces, hmore]
        · intro h
          exact ⟨cutAtCommas none rest, h.symm, rfl⟩
      · have hc : open? = none → c ≠ ',' := fun hnone heq => hcomma ⟨hnone, heq⟩
        rw [isCut_char hc]
        simp only [ih]
        constructor
        · intro h
          obtain ⟨piece, more, hpieces, hmore⟩ := h
          rw [hpieces, cutAtCommas_char hc, hmore]
        · intro h
          cases hrest : cutAtCommas (quoteAfter open? c) rest with
          | nil => exact absurd hrest (cutAtCommas_ne_nil _ _)
          | cons piece more =>
              have hcut := (cutAtCommas_char hc).2 hrest
              exact ⟨piece, more, h.symm.trans hcut, rfl⟩

variable {piece rest : List Char} {more : List (List Char)}

theorem cutAtCommas_blanks {blanks : List Char} (h : allBlank blanks = true)
    (hrest : cutAtCommas none rest = piece :: more) :
    cutAtCommas none (blanks ++ rest) = (blanks ++ piece) :: more := by
  induction blanks with
  | nil => exact hrest
  | cons c blanks ih =>
      simp only [allBlank, List.all_cons, Bool.and_eq_true] at h
      have hcomma : (none : Option Char) = none → c ≠ ',' := by
        intro _ hc
        rw [hc] at h
        exact absurd h.1 (by decide)
      rw [List.cons_append, List.cons_append, cutAtCommas_char hcomma, quoteAfter_of_isBlank h.1]
      exact ih h.2

theorem cutAtCommas_quoted {q : Char} {cs : List Char} (h : q ∉ cs)
    (hrest : cutAtCommas none rest = piece :: more) :
    cutAtCommas (some q) (cs ++ q :: rest) = (cs ++ q :: piece) :: more := by
  induction cs with
  | nil => simp [cutAtCommas, quoteAfter, hrest]
  | cons c cs ih =>
      rw [List.mem_cons, not_or] at h
      rw [List.cons_append, cutAtCommas, quoteAfter, if_neg (Ne.symm h.1), ih h.2]
      simp

theorem cutAtCommas_span {q : Char} {inner : List Char} (hq : isQuote q = true) (h : q ∉ inner)
    (hrest : cutAtCommas none rest = piece :: more) :
    cutAtCommas none (q :: (inner ++ q :: rest)) = (q :: (inner ++ q :: piece)) :: more := by
  have hcomma : (none : Option Char) = none → q ≠ ',' := by
    intro _ hc
    rw [hc] at hq
    cases hq
  rw [cutAtCommas_char hcomma, quoteAfter, if_pos hq]
  exact cutAtCommas_quoted h hrest

/-- A piece that holds no comma outside quotes, and leaves no quote open, ends at the next comma. -/
theorem cutAtCommas_append_comma {open? : Option Char} (hcut : cutAtCommas open? piece = [piece])
    (hclosed : piece.foldl quoteAfter open? = none) (rest : List Char) :
    cutAtCommas open? (piece ++ ',' :: rest) = piece :: cutAtCommas none rest := by
  induction piece generalizing open? with
  | nil =>
      have hopen : open? = none := hclosed
      subst hopen
      rfl
  | cons c piece ih =>
      have hcomma : open? = none → c ≠ ',' := by
        intro hopen hc
        subst hopen hc
        simp [cutAtCommas] at hcut
      rw [cutAtCommas_char hcomma] at hcut
      rw [List.cons_append, cutAtCommas_char hcomma]
      exact ih hcut hclosed

theorem cutAtCommas_intercalate {pieces : List (List Char)} (hne : pieces ≠ [])
    (hcut : ∀ piece ∈ pieces, cutAtCommas none piece = [piece])
    (hclosed : ∀ piece ∈ pieces, openQuote piece = none) :
    cutAtCommas none ([','].intercalate pieces) = pieces := by
  induction pieces with
  | nil => exact absurd rfl hne
  | cons piece pieces ih =>
      rw [List.forall_mem_cons] at hcut hclosed
      cases pieces with
      | nil => simpa using hcut.1
      | cons next pieces =>
          rw [List.intercalate_cons_cons, List.append_assoc, List.singleton_append,
            cutAtCommas_append_comma hcut.1 hclosed.1, ih (by simp) hcut.2 hclosed.2]

theorem allBlank_intercalate {piece : List Char} (h : allBlank piece = false)
    (pieces : List (List Char)) : allBlank ([','].intercalate (piece :: pieces)) = false := by
  obtain ⟨c, hc, hblank⟩ := allBlank_eq_false_iff.1 h
  rw [allBlank_eq_false_iff]
  refine ⟨c, ?_, hblank⟩
  cases pieces with
  | nil => simpa using hc
  | cons next pieces => simp [hc]

private theorem closed_of_cutAtCommas {open? : Option Char} {cs : List Char}
    (hclosed : cs.foldl quoteAfter open? = none) (hcut : cutAtCommas open? cs = piece :: more) :
    piece.foldl quoteAfter open? = none ∧ ∀ next ∈ more, openQuote next = none := by
  induction cs generalizing open? piece more with
  | nil =>
      rw [cutAtCommas, List.cons.injEq] at hcut
      rw [← hcut.1, ← hcut.2]
      exact ⟨hclosed, by simp⟩
  | cons c rest ih =>
      by_cases hcomma : open? = none ∧ c = ','
      · obtain ⟨hopen, hc⟩ := hcomma
        subst hopen hc
        have hrest : [] :: cutAtCommas none rest = piece :: more := hcut
        rw [List.cons.injEq] at hrest
        rw [← hrest.1, ← hrest.2]
        refine ⟨rfl, ?_⟩
        cases hnext : cutAtCommas none rest with
        | nil => simp
        | cons next others =>
            rw [List.forall_mem_cons]
            exact ih hclosed hnext
      · have hc : open? = none → c ≠ ',' := fun hnone heq => hcomma ⟨hnone, heq⟩
        cases hrest : cutAtCommas (quoteAfter open? c) rest with
        | nil => exact absurd hrest (cutAtCommas_ne_nil _ _)
        | cons next others =>
            rw [(cutAtCommas_char hc).2 hrest, List.cons.injEq] at hcut
            rw [← hcut.1, ← hcut.2]
            have hclosedRest : rest.foldl quoteAfter (quoteAfter open? c) = none := hclosed
            have hpieces := ih hclosedRest hrest
            exact hpieces

theorem openQuote_of_mem_cutAtCommas {cs : List Char} (h : openQuote cs = none) :
    ∀ piece ∈ cutAtCommas none cs, openQuote piece = none := by
  cases hcut : cutAtCommas none cs with
  | nil => exact absurd hcut (cutAtCommas_ne_nil _ _)
  | cons piece more =>
      rw [List.forall_mem_cons]
      exact closed_of_cutAtCommas h hcut

theorem openQuote_intercalate {pieces : List (List Char)}
    (hclosed : ∀ piece ∈ pieces, openQuote piece = none) :
    openQuote ([','].intercalate pieces) = none := by
  induction pieces with
  | nil => rfl
  | cons piece pieces ih =>
      rw [List.forall_mem_cons] at hclosed
      cases pieces with
      | nil => simpa using hclosed.1
      | cons next pieces =>
          have hpiece : piece.foldl quoteAfter none = none := hclosed.1
          rw [List.intercalate_cons_cons, openQuote, List.foldl_append, List.foldl_append, hpiece]
          exact ih hclosed.2

end EntityModel.Text
