import Mathlib.Data.List.Induction
import EntityModel.Text.Quoted

/-!
# Spans and blanks

Blanks around a text neither open nor close a quote, so a text whose spans are all closed keeps them
closed when it is trimmed. If such a text begins and ends with the same quote, it is either one span
or a row of parts of which the first and the last are spans.
-/

namespace EntityModel.Text

theorem allBlank_eq_false_iff {cs : List Char} :
    allBlank cs = false ↔ ∃ c ∈ cs, isBlank c = false := by
  simp [allBlank]

theorem not_isBlank_of_isQuote {c : Char} (h : isQuote c = true) : isBlank c = false := by
  have hc : c = '\'' ∨ c = '"' := by simpa [isQuote] using h
  rcases hc with rfl | rfl <;> decide

theorem not_isQuote_of_isBlank {c : Char} (h : isBlank c = true) : isQuote c = false := by
  cases hquote : isQuote c with
  | false => rfl
  | true =>
      rw [not_isBlank_of_isQuote hquote] at h
      cases h

theorem quoteAfter_of_isBlank {c : Char} (h : isBlank c = true) : quoteAfter none c = none := by
  simp [quoteAfter, not_isQuote_of_isBlank h]

theorem openQuote_of_plain {cs : List Char} (h : ∀ c ∈ cs, isQuote c = false) :
    openQuote cs = none := by
  induction cs with
  | nil => rfl
  | cons c cs ih =>
      rw [List.forall_mem_cons] at h
      rw [openQuote, List.foldl_cons, quoteAfter, if_neg (by simp [h.1])]
      exact ih h.2

theorem openQuote_of_allBlank {cs : List Char} (h : allBlank cs = true) : openQuote cs = none := by
  apply openQuote_of_plain
  intro c hc
  exact not_isQuote_of_isBlank (List.all_eq_true.1 h c hc)

theorem trimStart_append {blanks : List Char} (h : allBlank blanks = true) (cs : List Char) :
    trimStart (blanks ++ cs) = trimStart cs := by
  rw [trimStart, List.dropWhile_append_of_pos (List.all_eq_true.1 h)]
  rfl

theorem trim_padded {before after cs : List Char} (hbefore : allBlank before = true)
    (hafter : allBlank after = true) (hhead : ∀ c ∈ cs.head?, isBlank c = false)
    (hlast : ∀ c ∈ cs.getLast?, isBlank c = false) (hne : cs ≠ []) :
    trim (before ++ (cs ++ after)) = cs := by
  have hstart : trimStart (cs ++ after) = cs ++ after := by
    apply trimStart_eq_self
    intro c hc
    cases cs with
    | nil => exact absurd rfl hne
    | cons d cs => exact hhead c hc
  have hreverse : allBlank after.reverse = true := by
    rw [allBlank, List.all_reverse]
    exact hafter
  have hend : trimStart cs.reverse = cs.reverse := by
    apply trimStart_eq_self
    intro c hc
    rw [List.head?_reverse] at hc
    exact hlast c hc
  rw [trim, trimStart_append hbefore, hstart, trimEnd, List.reverse_append,
    trimStart_append hreverse, hend, List.reverse_reverse]

theorem exists_padding (cs : List Char) : ∃ before after,
    allBlank before = true ∧ allBlank after = true ∧ before ++ (trim cs ++ after) = cs := by
  refine ⟨cs.takeWhile isBlank, ((trimStart cs).reverse.takeWhile isBlank).reverse, ?_, ?_, ?_⟩
  · exact List.all_takeWhile
  · rw [allBlank, List.all_reverse]
    exact List.all_takeWhile
  · have hend : trim cs ++ ((trimStart cs).reverse.takeWhile isBlank).reverse = trimStart cs := by
      rw [trim, trimEnd, trimStart, ← List.reverse_append, List.takeWhile_append_dropWhile,
        List.reverse_reverse]
    rw [hend]
    exact List.takeWhile_append_dropWhile

theorem isQuote_of_openQuote {cs : List Char} {q : Char} (h : openQuote cs = some q) :
    isQuote q = true := by
  induction cs using List.reverseRecOn generalizing q with
  | nil => cases h
  | append_singleton cs c ih =>
      rw [openQuote, List.foldl_append, List.foldl_cons, List.foldl_nil] at h
      exact isQuote_of_mem_quoteAfter (fun _ hmem => ih hmem) c q h

theorem openQuote_append (cs rest : List Char) :
    openQuote (cs ++ rest) = rest.foldl quoteAfter (openQuote cs) := by
  rw [openQuote, List.foldl_append]
  rfl

theorem openQuote_concat (cs : List Char) (c : Char) :
    openQuote (cs ++ [c]) = quoteAfter (openQuote cs) c := openQuote_append cs [c]

theorem foldl_quoteAfter_quoted {q : Char} {cs : List Char} (h : q ∉ cs) :
    (cs ++ [q]).foldl quoteAfter (some q) = none := by
  induction cs with
  | nil => simp [quoteAfter]
  | cons c cs ih =>
      rw [List.mem_cons, not_or] at h
      rw [List.cons_append, List.foldl_cons, quoteAfter, if_neg (Ne.symm h.1), ih h.2]

theorem openQuote_span {q : Char} {inner : List Char} (hq : isQuote q = true) (h : q ∉ inner)
    (rest : List Char) : openQuote (q :: (inner ++ [q]) ++ rest) = openQuote rest := by
  rw [openQuote_append, openQuote, List.foldl_cons, quoteAfter, if_pos hq,
    foldl_quoteAfter_quoted h]
  rfl

theorem exists_opening {cs : List Char} {q : Char} (h : openQuote cs = some q) :
    ∃ before span, cs = before ++ q :: span ∧ openQuote before = none ∧ q ∉ span := by
  induction cs using List.reverseRecOn with
  | nil => cases h
  | append_singleton cs c ih =>
      rw [openQuote_concat] at h
      cases hopen : openQuote cs with
      | none =>
          rw [hopen, quoteAfter] at h
          split at h
          · obtain rfl := Option.some.inj h
            exact ⟨cs, [], rfl, hopen, by simp⟩
          · cases h
      | some q' =>
          rw [hopen, quoteAfter] at h
          split at h
          · cases h
          · rename_i hc
            obtain rfl := Option.some.inj h
            obtain ⟨before, span, hcs, hbefore, hspan⟩ := ih hopen
            refine ⟨before, span ++ [c], by simp [hcs], hbefore, ?_⟩
            simp [hspan, Ne.symm hc]

theorem openQuote_blanks {blanks : List Char} (h : allBlank blanks = true) (cs : List Char) :
    openQuote (blanks ++ cs) = openQuote cs := by
  rw [openQuote_append, openQuote_of_allBlank h]
  rfl

theorem openQuote_append_blanks {blanks : List Char} (h : allBlank blanks = true) (cs : List Char) :
    openQuote (cs ++ blanks) = openQuote cs := by
  induction blanks using List.reverseRecOn with
  | nil => rw [List.append_nil]
  | append_singleton blanks c ih =>
      simp only [allBlank, List.all_append, List.all_cons, List.all_nil, Bool.and_true,
        Bool.and_eq_true] at h
      rw [← List.append_assoc, openQuote_concat, ih h.1]
      cases hopen : openQuote cs with
      | none => exact quoteAfter_of_isBlank h.2
      | some q =>
          exact quoteAfter_of_not_isQuote (isQuote_of_openQuote hopen) (not_isQuote_of_isBlank h.2)

theorem openQuote_trim (cs : List Char) : openQuote (trim cs) = openQuote cs := by
  obtain ⟨before, after, hbefore, hafter, hcs⟩ := exists_padding cs
  rw [← hcs, openQuote_blanks hbefore, openQuote_append_blanks hafter, hcs]

/-- The value stands for the text: it is the text, or the text is a single span and the value is
what stands in it. -/
def IsUnquoted (cs value : List Char) : Prop :=
  value = cs ∨ ∃ q, isQuote q = true ∧ q ∉ value ∧ cs = q :: (value ++ [q])

/-- The text begins and ends with the same quote, but this quote stands within as well. -/
def IsQuotedApart (cs : List Char) : Prop :=
  ∃ q inner, isQuote q = true ∧ q ∈ inner ∧ cs = q :: (inner ++ [q])

/-- The text is a row of parts, and the first and the last of them are spans of the same quote. -/
def HasSpansAtEnds (cs : List Char) : Prop :=
  ∃ q first middle last, isQuote q = true ∧ q ∉ first ∧ openQuote middle = none ∧ q ∉ last ∧
    cs = q :: (first ++ q :: (middle ++ q :: (last ++ [q])))

theorem isDelimitedBy_iff {q : Char} {cs : List Char} :
    isDelimitedBy q cs = true ↔ ∃ inner, cs = q :: (inner ++ [q]) := by
  constructor
  · intro h
    simp only [isDelimitedBy, Bool.and_eq_true, decide_eq_true_eq, beq_iff_eq] at h
    obtain ⟨⟨hlength, hhead⟩, hlast⟩ := h
    cases cs with
    | nil => cases hhead
    | cons c rest =>
        obtain rfl : c = q := by simpa using hhead
        cases rest using List.reverseRecOn with
        | nil => simp at hlength
        | append_singleton inner d =>
            rw [← List.cons_append, List.getLast?_concat] at hlast
            obtain rfl := Option.some.inj hlast
            exact ⟨inner, rfl⟩
  · intro h
    obtain ⟨inner, hcs⟩ := h
    subst hcs
    have hlast : (q :: (inner ++ [q])).getLast? = some q := by
      rw [← List.cons_append, List.getLast?_concat]
    simp [isDelimitedBy, hlast]

theorem stripQuotes_cases (cs : List Char) :
    (∃ q, isQuote q = true ∧ cs = q :: (stripQuotes cs ++ [q])) ∨
      stripQuotes cs = cs ∧ ¬ ∃ q inner, isQuote q = true ∧ cs = q :: (inner ++ [q]) := by
  by_cases h : ∃ q inner, isQuote q = true ∧ cs = q :: (inner ++ [q])
  · obtain ⟨q, inner, hq, hcs⟩ := h
    left
    refine ⟨q, hq, ?_⟩
    rw [hcs, stripQuotes_delimited hq]
  · right
    refine ⟨?_, h⟩
    have hnot (q : Char) (hq : isQuote q = true) : isDelimitedBy q cs = false := by
      rw [Bool.eq_false_iff]
      intro hdelimited
      obtain ⟨inner, hcs⟩ := isDelimitedBy_iff.1 hdelimited
      exact h ⟨q, inner, hq, hcs⟩
    rw [stripQuotes, hnot '\'' rfl, hnot '"' rfl]
    rfl

private theorem ends_injective {q q' : Char} {inner inner' : List Char}
    (h : q :: (inner ++ [q]) = q' :: (inner' ++ [q'])) : q = q' ∧ inner = inner' := by
  rw [List.cons.injEq] at h
  refine ⟨h.1, ?_⟩
  exact (List.append_inj' h.2 rfl).1

/-- Whether the value stands for the text: it does unless the quotes that are taken away have
another of their kind between them. -/
theorem isUnquoted_stripQuotes_iff (cs : List Char) :
    IsUnquoted cs (stripQuotes cs) ↔ ¬ IsQuotedApart cs := by
  constructor
  · intro h hapart
    obtain ⟨q, inner, hq, hmem, hcs⟩ := hapart
    subst hcs
    rw [stripQuotes_delimited hq] at h
    rcases h with hsame | hspan
    · have hlength := congrArg List.length hsame
      simp at hlength
      omega
    · obtain ⟨q', -, hnotMem, hends⟩ := hspan
      rw [← (ends_injective hends).1] at hnotMem
      exact hnotMem hmem
  · intro h
    rcases stripQuotes_cases cs with hstripped | hkept
    · obtain ⟨q, hq, hcs⟩ := hstripped
      right
      refine ⟨q, hq, ?_, hcs⟩
      intro hmem
      exact h ⟨q, stripQuotes cs, hq, hmem, hcs⟩
    · left
      exact hkept.1

theorem isQuotedApart_iff {cs : List Char} (h : openQuote cs = none) :
    IsQuotedApart cs ↔ HasSpansAtEnds cs := by
  constructor
  · intro hapart
    obtain ⟨q, inner, hq, hmem, hcs⟩ := hapart
    obtain ⟨first, rest, hinner, hfirst⟩ := List.eq_append_cons_of_mem hmem
    have hrest : quoteAfter (openQuote rest) q = none := by
      rw [← openQuote_concat, ← openQuote_span hq hfirst, ← h, hcs, hinner]
      simp
    have hopen : openQuote rest = some q := by
      cases hopen : openQuote rest with
      | none =>
          rw [hopen, quoteAfter, if_pos hq] at hrest
          cases hrest
      | some q' =>
          rw [hopen, quoteAfter] at hrest
          split at hrest
          · rename_i hsame
            rw [hsame]
          · cases hrest
    obtain ⟨middle, last, hsplit, hmiddle, hlast⟩ := exists_opening hopen
    refine ⟨q, first, middle, last, hq, hfirst, hmiddle, hlast, ?_⟩
    rw [hcs, hinner, hsplit]
    simp
  · intro hspans
    obtain ⟨q, first, middle, last, hq, -, -, -, hcs⟩ := hspans
    exact ⟨q, first ++ q :: (middle ++ q :: last), hq, by simp, by simp [hcs]⟩

end EntityModel.Text
