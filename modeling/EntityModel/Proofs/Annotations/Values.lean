import EntityModel.Annotations.Reading
import EntityModel.Proofs.Text.Pieces

/-!
# Values of a parameter list

A parameter list that is not blank is cut at its commas outside quotes, in the only way there is.
Its values are those of the pieces, provided that no quote is left open and no piece is blank. Texts
in quotes come back as they are, whatever they hold and whatever blanks stand around the quotes.
-/

namespace EntityModel

structure WrittenValue where
  text : String
  quote : Char
  before : List Char
  after : List Char
  isQuote : Text.isQuote quote = true
  quote_notMem : quote ∉ text.toList
  before_blank : Text.allBlank before = true
  after_blank : Text.allBlank after = true

namespace WrittenValue

def quoted (v : WrittenValue) : List Char := v.quote :: (v.text.toList ++ [v.quote])

def chars (v : WrittenValue) : List Char := v.before ++ (v.quoted ++ v.after)

variable (v : WrittenValue)

theorem isBlank_quote : Text.isBlank v.quote = false := Text.not_isBlank_of_isQuote v.isQuote

theorem quoted_append (rest : List Char) :
    v.quoted ++ rest = v.quote :: (v.text.toList ++ v.quote :: rest) := by simp [quoted]

theorem openQuote_chars : Text.openQuote v.chars = none := by
  rw [chars, Text.openQuote_blanks v.before_blank, quoted,
    Text.openQuote_span v.isQuote v.quote_notMem]
  exact Text.openQuote_of_allBlank v.after_blank

theorem cutAtCommas_chars : Text.cutAtCommas none v.chars = [v.chars] := by
  have hafter : Text.cutAtCommas none v.after = [v.after] := by
    have hnil : Text.cutAtCommas none [] = [[]] := rfl
    simpa using Text.cutAtCommas_blanks v.after_blank hnil
  rw [chars, v.quoted_append]
  apply Text.cutAtCommas_blanks v.before_blank
  exact Text.cutAtCommas_span v.isQuote v.quote_notMem hafter

theorem trim_chars : Text.trim v.chars = v.quoted := by
  apply Text.trim_padded v.before_blank v.after_blank
  · simp [quoted, v.isBlank_quote]
  · rw [quoted, ← List.cons_append, List.getLast?_concat]
    simp [v.isBlank_quote]
  · simp [quoted]

theorem stripQuotes_quoted : Text.stripQuotes v.quoted = v.text.toList :=
  Text.stripQuotes_delimited v.isQuote _

theorem allBlank_chars : Text.allBlank v.chars = false := by
  rw [Text.allBlank_eq_false_iff]
  exact ⟨v.quote, by simp [chars, quoted], v.isBlank_quote⟩

end WrittenValue

namespace Entry

def pieceValue (piece : List Char) : String :=
  String.ofList (Text.stripQuotes (Text.trim piece))

theorem splitValues_eq_ok_iff {cs : List Char} (h : Text.allBlank cs = false)
    {values : List String} :
    splitValues cs = .ok values ↔ Text.openQuote cs = none ∧
      (∀ piece ∈ Text.cutAtCommas none cs, Text.allBlank piece = false) ∧
      values = (Text.cutAtCommas none cs).map pieceValue := by
  have hdropped (pieces : List (List Char)) (hpieces : pieces.any Text.allBlank = false) :
      pieces.dropLast.any Text.allBlank = false := by
    rw [List.any_eq_false] at hpieces ⊢
    intro piece hpiece
    exact hpieces piece ((List.dropLast_sublist pieces).subset hpiece)
  have hany : (∀ piece ∈ Text.cutAtCommas none cs, Text.allBlank piece = false) ↔
      (Text.cutAtCommas none cs).any Text.allBlank = false := by simp
  rw [hany, splitValues]
  simp only [h, Bool.false_eq_true, if_false]
  constructor
  · intro hvalues
    split at hvalues
    · cases hvalues
    · split at hvalues
      · cases hvalues
      · split at hvalues
        · cases hvalues
        · rename_i hopen hblank
          exact ⟨by simpa using hopen, by simpa using hblank, (Except.ok.inj hvalues).symm⟩
  · intro hvalues
    obtain ⟨hopen, hblank, hvalues⟩ := hvalues
    simp only [hdropped _ hblank, hopen, hblank, Bool.false_eq_true, if_false, Option.isSome_none,
      hvalues]
    rfl

/-- Values written with any quotes and blanks are read back, whatever they hold. -/
theorem splitValues_written (vs : List WrittenValue) :
    splitValues ([','].intercalate (vs.map WrittenValue.chars)) =
      .ok (vs.map WrittenValue.text) := by
  cases vs with
  | nil => rfl
  | cons v vs =>
      have hclosed : ∀ piece ∈ (v :: vs).map WrittenValue.chars, Text.openQuote piece = none := by
        simp [WrittenValue.openQuote_chars]
      have hcut : Text.cutAtCommas none ([','].intercalate ((v :: vs).map WrittenValue.chars)) =
          (v :: vs).map WrittenValue.chars := by
        apply Text.cutAtCommas_intercalate
        · simp
        · simp [WrittenValue.cutAtCommas_chars]
        · exact hclosed
      have hblank : Text.allBlank ([','].intercalate ((v :: vs).map WrittenValue.chars)) = false :=
        Text.allBlank_intercalate v.allBlank_chars _
      rw [splitValues_eq_ok_iff hblank, hcut]
      refine ⟨Text.openQuote_intercalate hclosed, ?_, ?_⟩
      · simp [WrittenValue.allBlank_chars]
      · simp [pieceValue, WrittenValue.trim_chars, WrittenValue.stripQuotes_quoted]

/-- A parameter list that is blank has no values. Any other is cut at the commas outside its quotes,
which gives one list of pieces; it is read exactly if no quote is left open and no piece is blank,
and then its values are those of the pieces. Values in quotes are read back. -/
theorem splitValues_of_isCut :
    (∀ cs, Text.allBlank cs = true → splitValues cs = .ok []) ∧
    (∀ cs, ∃! pieces, Text.IsCut none pieces cs) ∧
    (∀ cs pieces, Text.allBlank cs = false → Text.IsCut none pieces cs →
      (∀ values, splitValues cs = .ok values ↔
        Text.openQuote cs = none ∧ (∀ piece ∈ pieces, ∃ c ∈ piece, Text.isBlank c = false) ∧
          values = pieces.map pieceValue) ∧
      ((∃ fault, splitValues cs = .error fault) ↔
        ¬ (Text.openQuote cs = none ∧ ∀ piece ∈ pieces, ∃ c ∈ piece, Text.isBlank c = false))) ∧
    ∀ vs : List WrittenValue, splitValues ([','].intercalate (vs.map WrittenValue.chars)) =
      .ok (vs.map WrittenValue.text) := by
  refine ⟨?_, ?_, ?_, splitValues_written⟩
  · intro cs h
    rw [splitValues, if_pos h]
  · intro cs
    refine ⟨Text.cutAtCommas none cs, Text.isCut_iff.2 rfl, ?_⟩
    intro pieces hpieces
    exact (Text.isCut_iff.1 hpieces).symm
  · intro cs pieces h hpieces
    have hiff (values : List String) : splitValues cs = .ok values ↔
        Text.openQuote cs = none ∧
          (∀ piece ∈ Text.cutAtCommas none cs, Text.allBlank piece = false) ∧
          values = (Text.cutAtCommas none cs).map pieceValue :=
      splitValues_eq_ok_iff h
    simp only [Text.isCut_iff.1 hpieces, Text.allBlank_eq_false_iff] at hiff
    refine ⟨hiff, ?_⟩
    constructor
    · intro hfault hread
      obtain ⟨fault, hfault⟩ := hfault
      have hvalues := (hiff _).2 ⟨hread.1, hread.2, rfl⟩
      rw [hfault] at hvalues
      cases hvalues
    · intro hread
      cases hvalues : splitValues cs with
      | error fault => exact ⟨fault, rfl⟩
      | ok values =>
          obtain ⟨hopen, hblank, -⟩ := (hiff values).1 hvalues
          exact absurd ⟨hopen, hblank⟩ hread

theorem splitValues_of_isCut_mixed :
    Text.allBlank " \t".toList = true ∧ splitValues " \t".toList = .ok [] ∧
    Text.IsCut none [" 'a,\"'".toList, "b\",\"c ".toList] " 'a,\"',b\",\"c ".toList ∧
    splitValues " 'a,\"',b\",\"c ".toList = .ok ["a,\"", "b\",\"c"] ∧
    Text.IsCut none ["a".toList, "'b,".toList] "a,'b,".toList ∧
    ∃ fault, splitValues "a,'b,".toList = .error fault := by
  obtain ⟨hblank, -, hcut, -⟩ := splitValues_of_isCut
  have hempty : Text.allBlank " \t".toList = true := by decide
  have hread : Text.IsCut none [" 'a,\"'".toList, "b\",\"c ".toList] " 'a,\"',b\",\"c ".toList :=
    Text.isCut_iff.2 (by decide)
  have hopen : Text.IsCut none ["a".toList, "'b,".toList] "a,'b,".toList :=
    Text.isCut_iff.2 (by decide)
  have hparts : ∀ piece ∈ [" 'a,\"'".toList, "b\",\"c ".toList],
      ∃ c ∈ piece, Text.isBlank c = false := by
    simp only [← Text.allBlank_eq_false_iff]
    decide
  refine ⟨hempty, hblank _ hempty, hread, ?_, hopen, ?_⟩
  · exact ((hcut _ _ (by decide) hread).1 _).2 ⟨by decide, hparts, by decide⟩
  · apply (hcut _ _ (by decide) hopen).2.2
    intro hclosed
    exact absurd hclosed.1 (by decide)

end Entry

end EntityModel
