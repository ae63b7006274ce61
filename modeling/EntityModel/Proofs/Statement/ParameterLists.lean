import EntityModel.Proofs.Annotations.Quotation
import EntityModel.Proofs.Annotations.Reading
import EntityModel.Proofs.Statement.Shape

/-!
# Parameter lists of entries

Three readers look at the parentheses of an entry. The scanner counts them, so that an element is
balanced; the entry takes everything from the first to the last; the values are cut without regard
to them. They agree where the last parenthesis closes the first. Otherwise the entry is a name with
several lists, and what stands between the lists goes into the values.
-/

namespace EntityModel

namespace Nesting

variable {n last : Nesting} {c : Char} {cs rest : List Char}

theorem afterAll?_append_eq_some :
    n.afterAll? (cs ++ rest) = some last ↔
      ∃ middle, n.afterAll? cs = some middle ∧ middle.afterAll? rest = some last := by
  rw [afterAll?, List.foldlM_append]
  exact Option.bind_eq_some_iff

theorem afterAll?_concat_eq_some :
    n.afterAll? (cs ++ [c]) = some last ↔
      ∃ middle, n.afterAll? cs = some middle ∧ middle.after? c = some last := by
  rw [afterAll?_append_eq_some]
  simp [afterAll?_cons_eq_some]

theorem quote?_of_afterAll? (h : n.afterAll? cs = some last) :
    last.quote? = cs.foldl Text.quoteAfter n.quote? := by
  induction cs generalizing n with
  | nil =>
      rw [afterAll?_nil, Option.some.injEq] at h
      rw [h]
      rfl
  | cons c cs ih =>
      obtain ⟨next, hnext, hlast⟩ := afterAll?_cons_eq_some.1 h
      rw [ih hlast, quote?_of_after? hnext]
      rfl

theorem isQuote_of_closing {q : Char} {closed : Nesting} (hn : n.quote? = none)
    (h : n.afterAll? cs = some last) (hquote : last.quote? = some q)
    (hc : last.after? c = some closed) (hclosed : closed.quote? = none) :
    Text.isQuote c = true := by
  have hopen : Text.openQuote cs = some q := by
    rw [← hquote, quote?_of_afterAll? h, hn]
    rfl
  have hnone : Text.quoteAfter (some q) c = none := by
    rw [← hquote, ← quote?_of_after? hc, hclosed]
  have hq : c = q := by
    by_contra hne
    simp [Text.quoteAfter, hne] at hnone
  rw [hq]
  exact Text.isQuote_of_openQuote hopen

theorem not_isBlank_of_closing {closed : Nesting} (hn : n.quote? = none)
    (h : n.afterAll? cs = some last) (hc : last.after? c = some closed)
    (hclosed : closed.quote? = none) : Text.isBlank c = false := by
  cases hquote : last.quote? with
  | none =>
      have hlayout := not_isLayout_of_after? hquote hc
      rw [Text.isLayout, Bool.or_eq_false_iff] at hlayout
      exact hlayout.1
  | some q => exact Text.not_isBlank_of_isQuote (isQuote_of_closing hn h hquote hc hclosed)

theorem eq_nil_of_allBlank (hn : n.quote? = none) (hblank : Text.allBlank cs = true)
    (h : n.afterAll? (cs ++ rest) = some last) : cs = [] := by
  cases cs with
  | nil => rfl
  | cons c cs =>
      obtain ⟨next, hnext, -⟩ := afterAll?_cons_eq_some.1 h
      have hlayout := not_isLayout_of_after? hn hnext
      simp only [Text.allBlank, List.all_cons, Bool.and_eq_true] at hblank
      simp [Text.isLayout, hblank.1] at hlayout

theorem trim_eq_self (hn : n.quote? = none) (hlast : last.quote? = none)
    (h : n.afterAll? cs = some last) : Text.trim cs = cs := by
  apply Text.trim_eq_self
  · intro c hc
    cases cs with
    | nil => cases hc
    | cons d cs =>
        obtain rfl : d = c := by simpa using hc
        obtain ⟨next, hnext, -⟩ := afterAll?_cons_eq_some.1 h
        have hlayout := not_isLayout_of_after? hn hnext
        rw [Text.isLayout, Bool.or_eq_false_iff] at hlayout
        exact hlayout.1
  · intro c hc
    cases cs using List.reverseRecOn with
    | nil => cases hc
    | append_singleton cs d =>
        obtain rfl : d = c := by simpa using hc
        obtain ⟨middle, hmiddle, hd⟩ := afterAll?_concat_eq_some.1 h
        exact not_isBlank_of_closing hn hmiddle hd hlast

theorem trim_eq_self_of_plain (hn : n.quote? = none)
    (hplain : ∀ c ∈ Text.trim cs, Text.isQuote c = false)
    (h : n.afterAll? (cs ++ rest) = some last) : Text.trim cs = cs := by
  obtain ⟨before, after, hbefore, hafter, hcs⟩ := Text.exists_padding cs
  rw [← hcs, List.append_assoc] at h
  have hnil := eq_nil_of_allBlank hn hbefore h
  subst hnil
  rw [List.nil_append, List.append_assoc] at h
  obtain ⟨middle, hmiddle, hrest⟩ := afterAll?_append_eq_some.1 h
  have hquote : middle.quote? = none := by
    rw [quote?_of_afterAll? hmiddle, hn]
    exact Text.openQuote_of_plain hplain
  have hend := eq_nil_of_allBlank hquote hafter hrest
  subst hend
  simpa using hcs

def enclosed : Nesting := ⟨1, none⟩

/-- The text reaches from one parenthesis to the one that closes it: none of its own closes it. -/
def IsEnclosed (cs : List Char) : Prop :=
  ∀ before after, cs = before ++ ')' :: after → enclosed.afterAll? before ≠ some enclosed

theorem afterAll?_closing (h : enclosed.afterAll? (cs ++ [')']) = some outside) :
    enclosed.afterAll? cs = some enclosed := by
  obtain ⟨middle, hmiddle, hclosing⟩ := afterAll?_concat_eq_some.1 h
  rw [hmiddle]
  cases hquote : middle.quote? with
  | none =>
      by_cases hdepth : middle.depth = 0
      · simp [after?, hquote, hdepth] at hclosing
      · have hone : middle.depth = 1 := by
          simp [after?, hquote, hdepth, outside] at hclosing
          omega
        have heq : middle = ⟨middle.depth, middle.quote?⟩ := rfl
        rw [heq, hone, hquote]
        rfl
  | some q =>
      have hparenthesis : Text.isQuote ')' = true :=
        isQuote_of_closing rfl hmiddle hquote hclosing rfl
      cases hparenthesis

theorem exists_closing (h : ¬ IsEnclosed cs) :
    ∃ first rest, cs = first ++ ')' :: rest ∧ IsEnclosed first ∧
      enclosed.afterAll? first = some enclosed := by
  simp only [IsEnclosed, not_forall, not_not] at h
  obtain ⟨before, after, hcs, hbefore⟩ := h
  -- among the parentheses that close it, the first one
  induction hlength : before.length using Nat.strongRecOn generalizing before after with
  | ind length ih =>
      by_cases hfirst : IsEnclosed before
      · exact ⟨before, after, hcs, hfirst, hbefore⟩
      · simp only [IsEnclosed, not_forall, not_not] at hfirst
        obtain ⟨earlier, between, hsplit, hearlier⟩ := hfirst
        refine ih earlier.length ?_ earlier (between ++ ')' :: after) ?_ hearlier rfl
        · rw [← hlength, hsplit]
          simp
        · rw [hcs, hsplit]
          simp

private theorem depth_of_after? {quote? : Option Char} {next : Nesting}
    (h : after? ⟨0, quote?⟩ c = some next) :
    next.depth = 0 ∨ quote? = none ∧ c = '(' ∧ next = enclosed := by
  cases quote? with
  | some q =>
      left
      simp only [after?, Option.isSome_some, if_true] at h
      split at h
      · cases h
      · rw [← Option.some.inj h]
  | none =>
      simp only [after?, Option.isSome_none, Bool.false_eq_true, if_false, if_true] at h
      split at h
      · right
        exact ⟨rfl, rfl, (Option.some.inj h).symm⟩
      · cases h
      · cases h
      · cases h
      · cases h
      · cases h
      · left
        split at h
        · cases h
        · rw [← Option.some.inj h]

theorem depth_of_afterAll? {quote? : Option Char} (h : afterAll? ⟨0, quote?⟩ cs = some last)
    (hcs : '(' ∉ cs) : last.depth = 0 := by
  induction cs generalizing quote? with
  | nil =>
      rw [afterAll?_nil, Option.some.injEq] at h
      rw [← h]
  | cons c cs ih =>
      rw [List.mem_cons, not_or] at hcs
      obtain ⟨next, hnext, hlast⟩ := afterAll?_cons_eq_some.1 h
      rcases depth_of_after? hnext with hzero | hopening
      · have heq : next = ⟨0, next.quote?⟩ := by rw [← hzero]
        rw [heq] at hlast
        exact ih hlast hcs.2
      · exact absurd hopening.2.1.symm hcs.1

theorem exists_opening {quote? : Option Char} (h : afterAll? ⟨0, quote?⟩ cs = some last)
    (hdepth : last.depth ≠ 0) :
    ∃ between rest, cs = between ++ '(' :: rest ∧ afterAll? ⟨0, quote?⟩ between = some outside ∧
      enclosed.afterAll? rest = some last := by
  induction cs generalizing quote? with
  | nil =>
      rw [afterAll?_nil, Option.some.injEq] at h
      rw [← h] at hdepth
      exact absurd rfl hdepth
  | cons c cs ih =>
      obtain ⟨next, hnext, hlast⟩ := afterAll?_cons_eq_some.1 h
      rcases depth_of_after? hnext with hzero | hopening
      · have heq : next = ⟨0, next.quote?⟩ := by rw [← hzero]
        rw [heq] at hlast hnext
        obtain ⟨between, rest, hcs, hbetween, hrest⟩ := ih hlast
        refine ⟨c :: between, rest, by simp [hcs], ?_, hrest⟩
        rw [afterAll?_cons hnext, hbetween]
      · obtain ⟨hquote, hc, henclosed⟩ := hopening
        subst hquote hc henclosed
        exact ⟨[], cs, rfl, rfl, hlast⟩

/-- Text in parentheses that are not closed by the last one is a list of its own, then text outside
all lists, then the beginning of another list. -/
theorem not_isEnclosed_iff (h : enclosed.afterAll? cs = some enclosed) :
    ¬ IsEnclosed cs ↔ ∃ first between rest, cs = first ++ ')' :: (between ++ '(' :: rest) ∧
      IsEnclosed first ∧ enclosed.afterAll? first = some enclosed ∧
      outside.afterAll? between = some outside ∧ enclosed.afterAll? rest = some enclosed := by
  constructor
  · intro hnot
    obtain ⟨first, after, hcs, hfirst, hrun⟩ := exists_closing hnot
    rw [hcs, afterAll?_append hrun] at h
    have hclosing : enclosed.after? ')' = some outside := by decide
    rw [afterAll?_cons hclosing] at h
    obtain ⟨between, rest, hafter, hbetween, hrest⟩ := exists_opening h (by decide)
    exact ⟨first, between, rest, by rw [hcs, hafter], hfirst, hrun, hbetween, hrest⟩
  · intro hlists henclosed
    obtain ⟨first, between, rest, hcs, -, hrun, -, -⟩ := hlists
    exact henclosed first (between ++ '(' :: rest) hcs hrun

end Nesting

namespace Entry

def chars (e : Entry) : List Char :=
  e.name.toList ++
    match e.parameters? with
    | some inner => '(' :: (inner.toList ++ [')'])
    | none => []

theorem of_checkName {text name : List Char} {s : String} (h : checkName text name = .ok s) :
    name = s.toList ∧ s.toList.all isNameChar = true ∧ s ≠ "" := by
  rw [checkName] at h
  split at h
  · cases h
  · rename_i hne
    split at h
    · cases h
    · rename_i hall
      obtain rfl := Except.ok.inj h
      rw [String.toList_ofList]
      refine ⟨rfl, by simpa using hall, ?_⟩
      simpa [← String.toList_eq_nil_iff] using hne

theorem of_ofChars {cs : List Char} {e : Entry} (h : ofChars cs = .ok e) :
    (e.parameters? = none ∧ checkName (Text.trim cs) (Text.trim cs) = .ok e.name) ∨
    ∃ before inner, Text.trim cs = before ++ '(' :: (inner ++ [')']) ∧
      e.parameters? = some (String.ofList inner) ∧
      checkName (Text.trim cs) (Text.trim before) = .ok e.name := by
  rw [ofChars] at h
  have hsplit : (Text.trim cs).takeWhile (· != '(') ++ (Text.trim cs).dropWhile (· != '(') =
      Text.trim cs := List.takeWhile_append_dropWhile
  cases hdrop : (Text.trim cs).dropWhile (· != '(') with
  | nil =>
      left
      simp only [hdrop] at h
      obtain ⟨name, hname, h⟩ := bind_eq_ok_iff.1 h
      obtain rfl := Except.ok.inj h
      exact ⟨rfl, hname⟩
  | cons c inner =>
      right
      have hc : c = '(' := by
        have hhead := List.head?_dropWhile_not (· != '(') (Text.trim cs)
        rw [hdrop] at hhead
        simpa using hhead
      simp only [hdrop] at h
      split at h
      · rename_i hlast
        obtain ⟨inside, hinner⟩ := List.getLast?_eq_some_iff.1 hlast
        rw [hinner, List.dropLast_concat] at h
        rw [hdrop, hc, hinner] at hsplit
        obtain ⟨name, hname, h⟩ := bind_eq_ok_iff.1 h
        obtain rfl := Except.ok.inj h
        exact ⟨_, inside, hsplit.symm, rfl, hname⟩
      · cases h

theorem isQuote_of_isNameChar {c : Char} (h : isNameChar c = true) : Text.isQuote c = false := by
  cases hquote : Text.isQuote c with
  | false => rfl
  | true =>
      have hc : c = '\'' ∨ c = '"' := by simpa [Text.isQuote] using hquote
      rcases hc with rfl | rfl <;> cases h

/-- An entry that is read from an element is the element as written. -/
theorem eq_chars_of_ofChars {cs : List Char} {e : Entry}
    (hcs : Nesting.outside.afterAll? cs = some .outside) (h : ofChars cs = .ok e) :
    cs = e.chars ∧ e.name.toList.all isNameChar = true ∧ e.name ≠ "" := by
  have htrim := Nesting.trim_eq_self rfl rfl hcs
  rcases of_ofChars h with hbare | hlist
  · obtain ⟨hparameters, hname⟩ := hbare
    obtain ⟨hchars, hisName⟩ := of_checkName hname
    rw [htrim] at hchars
    refine ⟨?_, hisName⟩
    simp [chars, hparameters, hchars]
  · obtain ⟨before, inner, hsplit, hparameters, hname⟩ := hlist
    obtain ⟨hchars, hisName⟩ := of_checkName hname
    rw [htrim] at hsplit
    have hplain : ∀ c ∈ Text.trim before, Text.isQuote c = false := by
      intro c hc
      rw [hchars] at hc
      exact isQuote_of_isNameChar (List.all_eq_true.1 hisName.1 c hc)
    rw [hsplit] at hcs
    rw [Nesting.trim_eq_self_of_plain rfl hplain hcs] at hchars
    refine ⟨?_, hisName⟩
    simp [chars, hparameters, hsplit, hchars]

theorem eq_chars_of_ofMarked {cs : List Char} {mark : Char} {e : Entry}
    (hmark : Nesting.outside.after? mark = some .outside)
    (hcs : Nesting.outside.afterAll? cs = some .outside) (h : ofMarked mark cs = .ok e) :
    (cs = e.chars ∨ cs = mark :: e.chars) ∧ Nesting.outside.afterAll? e.chars = some .outside ∧
      e.name.toList.all isNameChar = true ∧ e.name ≠ "" := by
  rw [ofMarked, Nesting.trim_eq_self rfl rfl hcs] at h
  split at h
  · rename_i hhead
    cases cs with
    | nil => cases hhead
    | cons c cs =>
        obtain rfl : c = mark := by simpa using hhead
        rw [Nesting.afterAll?_cons hmark] at hcs
        obtain ⟨hchars, hname⟩ := eq_chars_of_ofChars hcs h
        rw [← hchars]
        exact ⟨.inr rfl, hcs, hname⟩
  · obtain ⟨hchars, hname⟩ := eq_chars_of_ofChars hcs h
    rw [← hchars]
    exact ⟨.inl rfl, hcs, hname⟩

theorem afterAll?_parameters {e : Entry} (hchars : Nesting.outside.afterAll? e.chars = some .outside)
    (hname : e.name.toList.all isNameChar = true) {inner : String}
    (hinner : inner ∈ e.parameters?) :
    Nesting.enclosed.afterAll? inner.toList = some .enclosed := by
  obtain ⟨name, parameters?⟩ := e
  obtain rfl : parameters? = some inner := hinner
  obtain ⟨middle, hmiddle, hlist⟩ := Nesting.afterAll?_append_eq_some.1 hchars
  have hparenthesis : '(' ∉ name.toList := by
    intro hmem
    exact absurd (List.all_eq_true.1 hname _ hmem) (by decide)
  have hdepth : middle.depth = 0 := Nesting.depth_of_afterAll? hmiddle hparenthesis
  have hquote : middle.quote? = none := by
    rw [Nesting.quote?_of_afterAll? hmiddle]
    apply Text.openQuote_of_plain
    intro c hc
    exact isQuote_of_isNameChar (List.all_eq_true.1 hname c hc)
  have houtside : middle = .outside := by
    obtain ⟨depth, quote?⟩ := middle
    rw [Nesting.outside, ← hdepth, ← hquote]
  have hopening : Nesting.outside.after? '(' = some .enclosed := by decide
  rw [houtside, Nesting.afterAll?_cons hopening] at hlist
  exact Nesting.afterAll?_closing hlist

/-- The parenthesis that ends the entry, if there is one, closes the first one. -/
def HasOneList (e : Entry) : Prop := ∀ inner ∈ e.parameters?, Nesting.IsEnclosed inner.toList

/-- The first parenthesis is closed before the end; what comes after it is outside parentheses, up
to another list. -/
def HasTextBetweenLists (e : Entry) : Prop :=
  ∃ inner ∈ e.parameters?, ∃ first between rest,
    inner.toList = first ++ ')' :: (between ++ '(' :: rest) ∧ Nesting.IsEnclosed first ∧
      Nesting.enclosed.afterAll? first = some .enclosed ∧
      Nesting.outside.afterAll? between = some .outside ∧
      Nesting.enclosed.afterAll? rest = some .enclosed

structure IsReadFrom (e : Entry) (mark : Char) (text : List Char) : Prop where
  read : ofMarked mark text = .ok e
  written : text = e.chars ∨ text = mark :: e.chars
  isName : e.name.toList.all isNameChar = true
  name_ne : e.name ≠ ""
  enclosed : ∀ inner ∈ e.parameters?, Nesting.enclosed.afterAll? inner.toList = some .enclosed
  hasOneList_iff : e.HasOneList ↔ ¬ e.HasTextBetweenLists

theorem isReadFrom_of_ofMarked {text : String} {mark : Char} {e : Entry}
    (hmark : Nesting.outside.after? mark = some .outside) (htext : Element.IsWellFormed text)
    (h : ofMarked mark text.toList = .ok e) : e.IsReadFrom mark text.toList := by
  obtain ⟨hwritten, hchars, hname, hne⟩ := eq_chars_of_ofMarked hmark htext.2 h
  have henclosed (inner : String) (hinner : inner ∈ e.parameters?) :=
    afterAll?_parameters hchars hname hinner
  refine ⟨h, hwritten, hname, hne, henclosed, ?_⟩
  constructor
  · intro hone hbetween
    obtain ⟨inner, hinner, hlists⟩ := hbetween
    exact (Nesting.not_isEnclosed_iff (henclosed inner hinner)).2 hlists (hone inner hinner)
  · intro hbetween inner hinner
    by_contra hnot
    exact hbetween ⟨inner, hinner, (Nesting.not_isEnclosed_iff (henclosed inner hinner)).1 hnot⟩

end Entry

namespace Definition

variable {label text : String} {d : Definition} {s : Statement} {element : Element}

theorem isWellFormed_of_mem_elements (h : ofText label text = .ok d) (hs : s ∈ d.statements)
    (helement : element ∈ s.annotations ++ s.tags) : Element.IsWellFormed element.text := by
  have hshaped := (isShaped_of_ofText h).statements s hs
  rcases List.mem_append.1 helement with hannotation | htag
  · exact hshaped.annotations.wellFormed element hannotation
  · exact hshaped.tags.wellFormed element htag

/-- What is read from an element of a definition is the element as written: a name, or a name and
everything from the first to the last of its parentheses, which is cut into the values. The last
parenthesis closes the first one unless a list ends before it and another one follows. -/
theorem entries_of_ofText (h : ofText label text = .ok d) (hs : s ∈ d.statements)
    (helement : element ∈ s.annotations ++ s.tags) (line? : Option Nat) :
    (∀ use, AnnotationUse.ofText element.text line? = .ok use →
      ∃ e : Entry, e.IsReadFrom '@' element.text.toList ∧ use.IsOfEntry e) ∧
    ∀ use, TagUse.ofText element.text line? = .ok use →
      ∃ e : Entry, e.IsReadFrom '#' element.text.toList ∧ e.name = use.name ∧
        e.values = .ok use.value?.toList := by
  have htext := isWellFormed_of_mem_elements h hs helement
  constructor
  · intro use huse
    obtain ⟨e, hread, hentry, -⟩ := AnnotationUse.exists_entry huse
    exact ⟨e, Entry.isReadFrom_of_ofMarked (by decide) htext hread, hentry⟩
  · intro use huse
    obtain ⟨e, hread, hname, hvalues⟩ := TagUse.exists_entry huse
    exact ⟨e, Entry.isReadFrom_of_ofMarked (by decide) htext hread, hname, hvalues⟩

theorem entries_of_ofText_seat :
    ∃ d, ofText "seat" "Seat \x7b row : int \x7b @Min(1), #n(a)b(c) \x7d; \x7d" = .ok d ∧
      d.statements = [⟨"row", "int", [⟨"@Min(1)", 1⟩], [⟨"#n(a)b(c)", 1⟩], 1⟩] ∧
      AnnotationUse.ofText "@Min(1)" none = .ok ⟨.min, .single "1", none⟩ ∧
      TagUse.ofText "#n(a)b(c)" none = .ok ⟨"n", some "a)b(c", none⟩ ∧
      ¬ Entry.HasTextBetweenLists ⟨"Min", some "1"⟩ ∧ ¬ Entry.HasOneList ⟨"n", some "a)b(c"⟩ := by
  have hsome : (ofText "seat" "Seat \x7b row : int \x7b @Min(1), #n(a)b(c) \x7d; \x7d").toOption.map
      statements = some [⟨"row", "int", [⟨"@Min(1)", 1⟩], [⟨"#n(a)b(c)", 1⟩], 1⟩] := by
    decide +kernel
  have hmin : AnnotationUse.ofText "@Min(1)" none = .ok ⟨.min, .single "1", none⟩ := by
    decide +kernel
  have htag : TagUse.ofText "#n(a)b(c)" none = .ok ⟨"n", some "a)b(c", none⟩ := by decide +kernel
  generalize hread : ofText _ _ = result at hsome ⊢
  cases result with
  | error e => cases hsome
  | ok d =>
      have hstatements : d.statements =
          [⟨"row", "int", [⟨"@Min(1)", 1⟩], [⟨"#n(a)b(c)", 1⟩], 1⟩] := Option.some.inj hsome
      have hmem : (⟨"row", "int", [⟨"@Min(1)", 1⟩], [⟨"#n(a)b(c)", 1⟩], 1⟩ : Statement) ∈
          d.statements := by simp [hstatements]
      refine ⟨d, rfl, hstatements, hmin, htag, ?_, ?_⟩
      · have hannotation : (⟨"@Min(1)", 1⟩ : Element) ∈
            [(⟨"@Min(1)", 1⟩ : Element)] ++ [⟨"#n(a)b(c)", 1⟩] := by simp
        obtain ⟨e, he, -⟩ := (entries_of_ofText hread hmem hannotation none).1 _ hmin
        have hentry : Entry.ofMarked '@' "@Min(1)".toList = .ok ⟨"Min", some "1"⟩ := by decide
        obtain rfl : ⟨"Min", some "1"⟩ = e := Except.ok.inj (hentry.symm.trans he.read)
        apply he.hasOneList_iff.1
        intro inner hinner before after hsplit
        obtain rfl : "1" = inner := Option.some.inj hinner
        have hone : ')' ∈ "1".toList := by simp [hsplit]
        exact absurd hone (by decide)
      · have helement : (⟨"#n(a)b(c)", 1⟩ : Element) ∈
            [(⟨"@Min(1)", 1⟩ : Element)] ++ [⟨"#n(a)b(c)", 1⟩] := by simp
        obtain ⟨e, he, -⟩ := (entries_of_ofText hread hmem helement none).2 _ htag
        have hentry : Entry.ofMarked '#' "#n(a)b(c)".toList = .ok ⟨"n", some "a)b(c"⟩ := by decide
        obtain rfl : ⟨"n", some "a)b(c"⟩ = e := Except.ok.inj (hentry.symm.trans he.read)
        rw [he.hasOneList_iff, not_not]
        refine ⟨"a)b(c", rfl, "a".toList, "b".toList, "c".toList, by decide, ?_, by decide,
          by decide, by decide⟩
        intro before after hsplit
        have hone : ')' ∈ "a".toList := by simp [hsplit]
        exact absurd hone (by decide)

/-- The entry of an annotation that is read may have several lists: what stands between them goes
into its value. -/
theorem not_forall_hasOneList :
    ¬ ∀ label text d s (element : Element) line? use (e : Entry), ofText label text = .ok d →
      s ∈ d.statements → element ∈ s.annotations ++ s.tags →
      AnnotationUse.ofText element.text line? = .ok use →
      Entry.ofMarked '@' element.text.toList = .ok e → e.HasOneList := by
  intro h
  have hsome : (ofText "E" "E \x7b\n x : string \x7b Default(a)b(c) \x7d ;\n\x7d").toOption.map
      statements = some [⟨"x", "string", [⟨"Default(a)b(c)", 2⟩], [], 2⟩] := by
    decide +kernel
  cases hread : ofText "E" "E \x7b\n x : string \x7b Default(a)b(c) \x7d ;\n\x7d" with
  | error e =>
      rw [hread] at hsome
      cases hsome
  | ok d =>
      rw [hread] at hsome
      have hstatements : d.statements = [⟨"x", "string", [⟨"Default(a)b(c)", 2⟩], [], 2⟩] :=
        Option.some.inj hsome
      have hone : Entry.HasOneList ⟨"Default", some "a)b(c"⟩ := by
        refine h "E" _ d ⟨"x", "string", [⟨"Default(a)b(c)", 2⟩], [], 2⟩ ⟨"Default(a)b(c)", 2⟩ none
          ⟨.defaultValue, .single "a)b(c", none⟩ _ hread ?_ ?_ ?_ ?_
        · simp [hstatements]
        · simp
        · decide +kernel
        · decide
      exact hone "a)b(c" rfl "a".toList "b(c".toList (by decide) (by decide)

end Definition

end EntityModel
