import EntityModel.Annotations.Reading
import EntityModel.Proofs.Statement.Printing
import EntityModel.Proofs.Success
import EntityModel.Proofs.Text.Pieces

/-!
# Quoted values

A value in quotes stands for itself, whatever it holds. The scanner, the cut into values and the
removal of the quotes each find the span of the value by their own means; all of them agree on
where it ends.
-/

namespace EntityModel

/-- A text on one line that can be quoted by the character. -/
structure QuotedText where
  text : String
  quote : Char
  isQuote : Text.isQuote quote = true
  quote_notMem : quote ∉ text.toList
  newline_notMem : '\n' ∉ text.toList

namespace QuotedText

def chars (t : QuotedText) : List Char := t.quote :: (t.text.toList ++ [t.quote])

def entry (t : QuotedText) (name : String) : String :=
  String.ofList (name.toList ++ '(' :: (t.chars ++ [')']))

def joined : List QuotedText → List Char
  | [] => []
  | [t] => t.chars
  | t :: rest => t.chars ++ ',' :: joined rest

theorem toList_entry (t : QuotedText) (name : String) :
    (t.entry name).toList = name.toList ++ '(' :: (t.chars ++ [')']) := String.toList_ofList

theorem chars_append (t : QuotedText) (rest : List Char) :
    t.chars ++ rest = t.quote :: (t.text.toList ++ t.quote :: rest) := by simp [chars]

theorem quote_eq_or (t : QuotedText) : t.quote = '\'' ∨ t.quote = '"' := by
  simpa [Text.isQuote] using t.isQuote

theorem quote_ne (t : QuotedText) {c : Char} (hc : Text.isQuote c = false) : t.quote ≠ c := by
  intro h
  have hquote := t.isQuote
  rw [h, hc] at hquote
  cases hquote

theorem isBlank_quote (t : QuotedText) : Text.isBlank t.quote = false :=
  Text.not_isBlank_of_isQuote t.isQuote

theorem getLast?_chars (t : QuotedText) : t.chars.getLast? = some t.quote := by
  rw [chars, ← List.cons_append, List.getLast?_concat]

end QuotedText

namespace Text

variable (t : QuotedText)

theorem openQuote_chars (rest : List Char) : openQuote (t.chars ++ rest) = openQuote rest :=
  openQuote_span t.isQuote t.quote_notMem rest

theorem cutAtCommas_chars {rest piece : List Char} {more : List (List Char)}
    (hrest : cutAtCommas none rest = piece :: more) :
    cutAtCommas none (t.chars ++ rest) = (t.chars ++ piece) :: more := by
  rw [t.chars_append, t.chars_append]
  exact cutAtCommas_span t.isQuote t.quote_notMem hrest

theorem cutAtCommas_joined (ts : List QuotedText) :
    cutAtCommas none (QuotedText.joined (t :: ts)) = (t :: ts).map QuotedText.chars := by
  induction ts generalizing t with
  | nil =>
      have hnone : cutAtCommas none [] = [[]] := rfl
      have hcut := cutAtCommas_chars t hnone
      rwa [List.append_nil] at hcut
  | cons u ts ih =>
      have hrest : cutAtCommas none (',' :: QuotedText.joined (u :: ts)) =
          [] :: (u :: ts).map QuotedText.chars := by
        rw [← ih u]
        rfl
      have hcut := cutAtCommas_chars t hrest
      rwa [List.append_nil] at hcut

theorem openQuote_joined (ts : List QuotedText) :
    openQuote (QuotedText.joined (t :: ts)) = none := by
  induction ts generalizing t with
  | nil =>
      rw [QuotedText.joined, ← List.append_nil t.chars, openQuote_chars]
      rfl
  | cons u ts ih => exact (openQuote_chars t _).trans (ih u)

theorem trim_chars : trim t.chars = t.chars := by
  refine trim_eq_self ?_ ?_
  · simp [QuotedText.chars, t.isBlank_quote]
  · simp [t.getLast?_chars, t.isBlank_quote]

theorem stripQuotes_chars : stripQuotes t.chars = t.text.toList := stripQuotes_delimited t.isQuote _

end Text

namespace Entry

private theorem bounds_of_isNameChar {c : Char} (h : isNameChar c = true) :
    48 ≤ c.toNat ∧ c.toNat ≤ 122 := by
  rw [isNameChar, Bool.or_eq_true, beq_iff_eq] at h
  rcases h with h | rfl
  · have hranges : (decide (65 ≤ c.val ∧ c.val ≤ 90) ||
        (decide (97 ≤ c.val) && decide (c.val ≤ 122)) ||
          (decide (48 ≤ c.val) && decide (c.val ≤ 57))) = true := h
    simp only [Bool.or_eq_true, Bool.and_eq_true, decide_eq_true_eq, UInt32.le_iff_toNat_le,
      Char.toNat_val, UInt32.reduceToNat] at hranges
    omega
  · decide

theorem isBlank_of_isNameChar {c : Char} (h : isNameChar c = true) : Text.isBlank c = false := by
  cases hblank : Text.isBlank c with
  | false => rfl
  | true =>
      obtain ⟨r, hr, hlow, hhigh⟩ := Text.CharRanges.exists_of_contains hblank
      have hall : Text.blankRanges.all (fun r => r.2 < 48 || 122 < r.1) = true := by decide
      have hapart := List.all_eq_true.1 hall r hr
      simp only [Bool.or_eq_true, decide_eq_true_eq] at hapart
      have hbounds := bounds_of_isNameChar h
      omega

theorem allBlank_chars (t : QuotedText) : Text.allBlank t.chars = false := by
  simp [Text.allBlank, QuotedText.chars, t.isBlank_quote]

theorem splitValues_joined (t : QuotedText) (ts : List QuotedText) :
    splitValues (QuotedText.joined (t :: ts)) = .ok ((t :: ts).map QuotedText.text) := by
  have hblank (ts : List QuotedText) :
      (ts.map QuotedText.chars).any Text.allBlank = false := by
    simp [List.any_map, Function.comp_def, allBlank_chars]
  have hstart : Text.allBlank (QuotedText.joined (t :: ts)) = false := by
    cases ts <;> simp [Text.allBlank, QuotedText.joined, QuotedText.chars, t.isBlank_quote]
  have hvalue (u : QuotedText) :
      String.ofList (Text.stripQuotes (Text.trim u.chars)) = u.text := by
    rw [Text.trim_chars, Text.stripQuotes_chars, String.ofList_toList]
  have hdropped : ((t :: ts).map QuotedText.chars).dropLast.any Text.allBlank = false := by
    rw [← List.map_dropLast]
    exact hblank _
  rw [splitValues, Text.cutAtCommas_joined, Text.openQuote_joined]
  simp only [hstart, hdropped, hblank, Bool.false_eq_true, if_false, Option.isSome_none,
    List.map_map, Function.comp_def, hvalue]

theorem trim_parameters (inner : List Char) {name : String}
    (hname : name.toList.head?.all (fun c => !Text.isBlank c) = true) :
    Text.trim (name.toList ++ '(' :: (inner ++ [')'])) = name.toList ++ '(' :: (inner ++ [')']) := by
  have hlast : (name.toList ++ '(' :: (inner ++ [')'])).getLast? = some ')' := by
    rw [List.getLast?_append, ← List.cons_append, List.getLast?_concat, Option.some_or]
  refine Text.trim_eq_self (fun c hc => ?_) ?_
  · rw [List.head?_append] at hc
    cases hhead : name.toList.head? with
    | none =>
        rw [hhead] at hc
        obtain rfl : '(' = c := by simpa using hc
        decide
    | some d =>
        rw [hhead] at hc hname
        obtain rfl : d = c := by simpa using hc
        simpa using hname
  · intro c hc
    obtain rfl : ')' = c := by simpa [hlast] using hc
    decide

private theorem head?_of_isNameChar {name : String} (hall : name.toList.all isNameChar = true) :
    name.toList.head?.all (fun c => !Text.isBlank c) = true := by
  cases hfirst : name.toList.head? with
  | none => rfl
  | some c =>
      have hname := List.all_eq_true.1 hall c (List.mem_of_mem_head? hfirst)
      simp [isBlank_of_isNameChar hname]

theorem ofChars_parameters (inner : List Char) {name : String} (hne : name ≠ "")
    (hall : name.toList.all isNameChar = true) :
    ofChars (name.toList ++ '(' :: (inner ++ [')'])) = .ok ⟨name, some (String.ofList inner)⟩ := by
  have hname := List.all_eq_true.1 hall
  have hhead : ∀ c ∈ name.toList.head?, Text.isBlank c = false := fun c hc =>
    isBlank_of_isNameChar (hname c (List.mem_of_mem_head? hc))
  have hlast : ∀ c ∈ name.toList.getLast?, Text.isBlank c = false := fun c hc =>
    isBlank_of_isNameChar (hname c (List.mem_of_mem_getLast? hc))
  have hparenthesis : ∀ c ∈ name.toList, (c != '(') = true :=
    Text.bne_of_notMem fun hmem => absurd (hname _ hmem) (by decide)
  have hcheck (text : List Char) : checkName text name.toList = .ok name := by
    simp [checkName, hne, hall]
  rw [ofChars, trim_parameters inner (head?_of_isNameChar hall)]
  simp only [List.dropWhile_append_of_pos hparenthesis, List.takeWhile_append_of_pos hparenthesis]
  have hdrop : ('(' :: (inner ++ [')'])).dropWhile (fun c => c != '(') =
      '(' :: (inner ++ [')']) := rfl
  have htake : ('(' :: (inner ++ [')'])).takeWhile (fun c => c != '(') = [] := rfl
  simp only [hdrop, htake, List.append_nil, List.getLast?_concat, List.dropLast_concat, if_true,
    Text.trim_eq_self hhead hlast, hcheck, bind, Except.bind, pure, Except.pure]

theorem ofMarked_parameters (inner : List Char) {mark : Char} {name : String} (hne : name ≠ "")
    (hall : name.toList.all isNameChar = true) (hmark : name.toList.head? ≠ some mark) :
    ofMarked mark (name.toList ++ '(' :: (inner ++ [')'])) =
      .ok ⟨name, some (String.ofList inner)⟩ := by
  have hhead : (name.toList ++ '(' :: (inner ++ [')'])).head? ≠ some mark := by
    obtain ⟨c, cs, hcs⟩ := List.exists_cons_of_ne_nil (mt String.toList_eq_nil_iff.1 hne)
    rw [hcs] at hmark ⊢
    exact hmark
  rw [ofMarked, trim_parameters inner (head?_of_isNameChar hall)]
  simp only [hhead, if_false]
  exact ofChars_parameters inner hne hall

theorem values_joined (name : String) (t : QuotedText) (ts : List QuotedText) :
    values ⟨name, some (String.ofList (QuotedText.joined (t :: ts)))⟩ =
      .ok ((t :: ts).map QuotedText.text) := by
  simp only [values, String.toList_ofList, splitValues_joined]

theorem values_chars (t : QuotedText) (name : String) :
    values ⟨name, some (String.ofList t.chars)⟩ = .ok [t.text] := values_joined name t []

end Entry

theorem AnnotationUse.ofText_quoted (t : QuotedText) (line? : Option Nat) :
    AnnotationUse.ofText (t.entry "Default") line? =
      .ok ⟨.defaultValue, .single t.text, line?⟩ := by
  have hentry : Entry.ofMarked '@' (t.entry "Default").toList =
      .ok ⟨"Default", some (String.ofList t.chars)⟩ := by
    rw [t.toList_entry]
    exact Entry.ofMarked_parameters t.chars (by decide) (by decide) (by decide)
  have hkind : AnnotationKind.ofName? "Default" = some .defaultValue := by decide
  rw [ofText, hentry]
  simp only [mapError_ok, bind, Except.bind, ofEntry, hkind, Entry.values_chars]
  rfl

theorem TagUse.ofText_quoted (t : QuotedText) (line? : Option Nat) :
    TagUse.ofText (t.entry "#Label") line? = .ok ⟨"Label", some t.text, line?⟩ := by
  have hentry : Entry.ofMarked '#' (t.entry "#Label").toList =
      .ok ⟨"Label", some (String.ofList t.chars)⟩ := by
    have hmark : ("#Label" : String).toList ++ '(' :: (t.chars ++ [')']) =
        '#' :: (("Label" : String).toList ++ '(' :: (t.chars ++ [')'])) := by simp
    rw [t.toList_entry, Entry.ofMarked, Entry.trim_parameters t.chars (by decide)]
    simp only [hmark, List.head?_cons, if_true, List.tail_cons]
    exact Entry.ofChars_parameters t.chars (by decide) (by decide)
  rw [ofText, hentry]
  simp only [mapError_ok, bind, Except.bind, ofEntry, Entry.values_chars]
  rfl

namespace Element

/-- The writing keeps the characters in quotes, and outside those that are no marks. -/
structure Keeps (write : Option Char → List Char → List Char) (marks : List Char) : Prop where
  cons : ∀ quote? c rest, (quote? = none → c ∉ marks) →
    write quote? (c :: rest) = c :: write (Text.quoteAfter quote? c) rest
  isQuote_mark : ∀ mark ∈ marks, Text.isQuote mark = false

theorem keeps_spaced : Keeps spaced ['/'] := by
  refine ⟨fun quote? c rest hc => ?_, by simp [Text.isQuote]⟩
  rw [spaced, if_neg]
  rintro ⟨hquote, rfl, -⟩
  exact hc hquote (by simp)

section Keeps

variable {write : Option Char → List Char → List Char} {marks : List Char} (h : Keeps write marks)

include h

theorem Keeps.append {cs : List Char} (hcs : ∀ c ∈ cs, c ∉ marks ∧ Text.isQuote c = false)
    (rest : List Char) : write none (cs ++ rest) = cs ++ write none rest := by
  induction cs with
  | nil => rfl
  | cons c cs ih =>
      rw [List.forall_mem_cons] at hcs
      obtain ⟨⟨hc, hquote⟩, hcs⟩ := hcs
      rw [List.cons_append, h.cons none c _ fun _ => hc, Text.quoteAfter, if_neg (by simp [hquote]),
        ih hcs]
      rfl

theorem Keeps.quoted {q : Char} {cs : List Char} (hq : q ∉ cs) (rest : List Char) :
    write (some q) (cs ++ q :: rest) = cs ++ q :: write none rest := by
  induction cs with
  | nil =>
      rw [List.nil_append, h.cons (some q) q rest (by simp), Text.quoteAfter, if_pos rfl]
      rfl
  | cons c cs ih =>
      rw [List.mem_cons, not_or] at hq
      rw [List.cons_append, h.cons (some q) c _ (by simp), Text.quoteAfter, if_neg (Ne.symm hq.1),
        ih hq.2]
      rfl

theorem Keeps.chars (t : QuotedText) (rest : List Char) :
    write none (t.chars ++ rest) = t.chars ++ write none rest := by
  have hquote : t.quote ∉ marks := fun hmem => t.quote_ne (h.isQuote_mark _ hmem) rfl
  rw [t.chars_append, t.chars_append, h.cons none t.quote _ fun _ => hquote, Text.quoteAfter,
    if_pos t.isQuote, h.quoted t.quote_notMem]

end Keeps

theorem write_plain_entry (t : QuotedText) {name : String} (hslash : '/' ∉ name.toList)
    (hplain : name.toList.all (fun c => !Text.isQuote c) = true) :
    Spelling.plain.write (t.entry name) = (t.entry name).toList := by
  have hopening : ∀ c ∈ name.toList ++ ['('], c ∉ ['/'] ∧ Text.isQuote c = false := by
    intro c hc
    rcases List.mem_append.1 hc with hc | hc
    · have hplain' : Text.isQuote c = false := by simpa using List.all_eq_true.1 hplain c hc
      have hne : c ≠ '/' := fun heq => hslash (heq ▸ hc)
      exact ⟨by simpa using hne, hplain'⟩
    · rw [List.mem_singleton.1 hc]
      decide
  have hentry : (t.entry name).toList = (name.toList ++ ['(']) ++ (t.chars ++ [')']) := by
    simp [t.toList_entry]
  have hspaced : Spelling.plain.write (t.entry name) = spaced none (t.entry name).toList := rfl
  rw [hspaced, hentry, keeps_spaced.append hopening, keeps_spaced.chars]
  rfl

end Element

namespace Nesting

theorem afterAll?_quoted {q : Char} {cs : List Char} (hq : q ∉ cs) (hn : '\n' ∉ q :: cs)
    (depth : Nat) (rest : List Char) :
    afterAll? ⟨depth, some q⟩ (cs ++ q :: rest) = afterAll? ⟨depth, none⟩ rest := by
  rw [List.mem_cons, not_or] at hn
  induction cs with
  | nil => exact afterAll?_cons (by simp [after?, Text.quoteAfter, Ne.symm hn.1]) rest
  | cons c cs ih =>
      rw [List.mem_cons, not_or] at hq hn
      have hnext : after? ⟨depth, some q⟩ c = some ⟨depth, some q⟩ := by
        simp [after?, Text.quoteAfter, Ne.symm hn.2.1, Ne.symm hq.1]
      rw [List.cons_append, afterAll?_cons hnext, ih hq.2 ⟨hn.1, hn.2.2⟩]

theorem afterAll?_chars (t : QuotedText) (depth : Nat) (rest : List Char) :
    afterAll? ⟨depth, none⟩ (t.chars ++ rest) = afterAll? ⟨depth, none⟩ rest := by
  have hopen : after? ⟨depth, none⟩ t.quote = some ⟨depth, some t.quote⟩ := by
    have hlayout : Text.isLayout '\'' = false ∧ Text.isLayout '"' = false := by decide
    rcases t.quote_eq_or with h | h <;> rw [h] <;>
      simp [after?, hlayout, Text.quoteAfter, Text.isQuote]
  have hn : '\n' ∉ t.quote :: t.text.toList := by
    rw [List.mem_cons, not_or]
    exact ⟨(t.quote_ne rfl).symm, t.newline_notMem⟩
  rw [t.chars_append, afterAll?_cons hopen, afterAll?_quoted t.quote_notMem hn]

end Nesting

theorem Element.isWellFormed_parameters {inner : List Char} {name : String}
    (hname : Nesting.outside.afterAll? name.toList = some .outside)
    (hinner : Nesting.afterAll? ⟨1, none⟩ (inner ++ [')']) = some .outside) :
    IsWellFormed (String.ofList (name.toList ++ '(' :: (inner ++ [')']))) := by
  have hparenthesis : Nesting.outside.after? '(' = some ⟨1, none⟩ := by decide
  refine ⟨?_, ?_⟩
  · rw [Ne, ← String.toList_eq_nil_iff, String.toList_ofList]
    simp
  · rw [String.toList_ofList, Nesting.afterAll?_append hname, Nesting.afterAll?_cons hparenthesis,
      hinner]

theorem Element.isWellFormed_entry (t : QuotedText) {name : String}
    (hname : Nesting.outside.afterAll? name.toList = some .outside) :
    IsWellFormed (t.entry name) := by
  apply isWellFormed_parameters hname
  rw [Nesting.afterAll?_chars]
  rfl

end EntityModel
