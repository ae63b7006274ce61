import Mathlib.Data.List.Forall2
import EntityModel.Entity.OfTable
import EntityModel.Proofs.Annotations.Values

/-!
# Removal of quotes

A value loses the quotes at its ends if they are of one kind. They need not belong together: where a
value is a row of several quoted parts, the first and the last part lose a quote each. Among the
values of a parameter list these are the only ones that do not stand for themselves. The default of
a column has not been scanned, so there the quotes in between may be anything.
-/

namespace EntityModel

/-- The value is the text, or the text without the quotes of one kind at its ends. -/
def Text.IsStripped (cs value : List Char) : Prop :=
  value = cs ∨ ∃ q, isQuote q = true ∧ cs = q :: (value ++ [q])

theorem Text.isStripped_stripQuotes (cs : List Char) : IsStripped cs (stripQuotes cs) := by
  rcases stripQuotes_cases cs with hstripped | hkept
  · exact .inr hstripped
  · exact .inl hkept.1

def trimmedDefault (value : String) : List Char :=
  Text.trim (value.toList.filter fun c => ' ' ≤ c)

theorem toList_cleanDefault (value : String) :
    (cleanDefault value).toList = Text.stripQuotes (trimmedDefault value) := String.toList_ofList

namespace Entry

theorem toList_pieceValue (piece : List Char) :
    (pieceValue piece).toList = Text.stripQuotes (Text.trim piece) := String.toList_ofList

theorem isUnquoted_pieceValue_iff {cs piece : List Char} (h : Text.openQuote cs = none)
    (hpiece : piece ∈ Text.cutAtCommas none cs) :
    Text.IsUnquoted (Text.trim piece) (pieceValue piece).toList ↔
      ¬ Text.HasSpansAtEnds (Text.trim piece) := by
  have hclosed : Text.openQuote (Text.trim piece) = none := by
    rw [Text.openQuote_trim]
    exact Text.openQuote_of_mem_cutAtCommas h piece hpiece
  rw [toList_pieceValue, Text.isUnquoted_stripQuotes_iff, Text.isQuotedApart_iff hclosed]

end Entry

/-- A value of a parameter list is its piece, trimmed, at most without the quotes of one kind at
its ends. These are the quotes of a single span unless the piece is a row of parts that begins and
ends with spans of that quote. The same holds for the default of a column, where the condition is
that the quote does not stand in between. -/
theorem isUnquoted_values_iff (cs : List Char) (reported : String) :
    (∀ pieces values, Text.IsCut none pieces cs → Entry.splitValues cs = .ok values →
      Text.allBlank cs = true ∧ values = [] ∨
      List.Forall₂ (fun piece value =>
        Text.IsStripped (Text.trim piece) value.toList ∧
        (Text.IsUnquoted (Text.trim piece) value.toList ↔
          ¬ Text.HasSpansAtEnds (Text.trim piece))) pieces values) ∧
    Text.IsStripped (trimmedDefault reported) (cleanDefault reported).toList ∧
    (Text.IsUnquoted (trimmedDefault reported) (cleanDefault reported).toList ↔
      ¬ Text.IsQuotedApart (trimmedDefault reported)) := by
  constructor
  · intro pieces values hpieces hvalues
    rw [Text.isCut_iff] at hpieces
    subst hpieces
    cases hblank : Text.allBlank cs with
    | true =>
        left
        rw [Entry.splitValues, if_pos hblank] at hvalues
        exact ⟨rfl, (Except.ok.inj hvalues).symm⟩
    | false =>
        right
        obtain ⟨hopen, -, hmap⟩ := (Entry.splitValues_eq_ok_iff hblank).1 hvalues
        rw [hmap, List.forall₂_map_right_iff, List.forall₂_same]
        intro piece hpiece
        refine ⟨?_, Entry.isUnquoted_pieceValue_iff hopen hpiece⟩
        rw [Entry.toList_pieceValue]
        exact Text.isStripped_stripQuotes _
  · rw [toList_cleanDefault]
    exact ⟨Text.isStripped_stripQuotes _, Text.isUnquoted_stripQuotes_iff _⟩

theorem isUnquoted_values_iff_joined :
    Text.IsCut none ["'x'".toList, " 'a' + 'b'".toList] "'x', 'a' + 'b'".toList ∧
    Entry.splitValues "'x', 'a' + 'b'".toList = .ok ["x", "a' + 'b"] ∧
    Text.IsUnquoted "'x'".toList "x".toList ∧ ¬ Text.HasSpansAtEnds "'x'".toList ∧
    Text.HasSpansAtEnds "'a' + 'b'".toList ∧
    ¬ Text.IsUnquoted "'a' + 'b'".toList "a' + 'b".toList ∧
    cleanDefault " 'it''s'" = "it''s" ∧ ¬ Text.IsUnquoted "'it''s'".toList "it''s".toList := by
  obtain ⟨hvalues, -, hdefault⟩ := isUnquoted_values_iff "'x', 'a' + 'b'".toList " 'it''s'"
  have hcut : Text.IsCut none ["'x'".toList, " 'a' + 'b'".toList] "'x', 'a' + 'b'".toList :=
    Text.isCut_iff.2 (by decide)
  have hread : Entry.splitValues "'x', 'a' + 'b'".toList = .ok ["x", "a' + 'b"] := by decide
  have hspan : Text.IsUnquoted "'x'".toList "x".toList :=
    .inr ⟨'\'', by decide, by decide, by decide⟩
  have hspans : Text.HasSpansAtEnds "'a' + 'b'".toList :=
    ⟨'\'', "a".toList, " + ".toList, "b".toList, by decide, by decide, by decide, by decide,
      by decide⟩
  have hclean : cleanDefault " 'it''s'" = "it''s" := by decide
  have hapart : Text.IsQuotedApart (trimmedDefault " 'it''s'") :=
    ⟨'\'', "it''s".toList, by decide, by decide, by decide⟩
  have hquoted : ¬ Text.IsUnquoted (trimmedDefault " 'it''s'") "it''s".toList := by
    rw [← hclean, hdefault, not_not]
    exact hapart
  rcases hvalues _ _ hcut hread with hnone | hboth
  · exact absurd hnone.2 (by decide)
  · rw [List.forall₂_cons, List.forall₂_cons] at hboth
    obtain ⟨⟨-, hsingle⟩, ⟨-, hjoined⟩, -⟩ := hboth
    refine ⟨hcut, hread, hspan, hsingle.1 hspan, hspans, ?_, hclean, hquoted⟩
    intro h
    exact hjoined.1 h hspans

/-- Not every value stands for its piece, and not every default for the text it is taken from: of
two literals and the operator between them, the outer quotes are lost. -/
theorem not_forall_isUnquoted :
    (¬ ∀ cs pieces values, Text.IsCut none pieces cs → Entry.splitValues cs = .ok values →
      Text.allBlank cs = true ∧ values = [] ∨
      List.Forall₂ (fun piece value => Text.IsUnquoted (Text.trim piece) value.toList)
        pieces values) ∧
    ¬ ∀ value, Text.IsUnquoted (trimmedDefault value) (cleanDefault value).toList := by
  have hapart : Text.IsQuotedApart "'a' + 'b'".toList :=
    ⟨'\'', "a' + 'b".toList, by decide, by decide, by decide⟩
  have hnot : ¬ Text.IsUnquoted "'a' + 'b'".toList (Text.stripQuotes "'a' + 'b'".toList) := by
    rw [Text.isUnquoted_stripQuotes_iff, not_not]
    exact hapart
  constructor
  · intro h
    have hcut : Text.IsCut none ["'a' + 'b'".toList] "'a' + 'b'".toList :=
      Text.isCut_iff.2 (by decide)
    rcases h _ _ ["a' + 'b"] hcut (by decide) with hnone | hone
    · exact absurd hnone.2 (by decide)
    · exact hnot (List.forall₂_cons.1 hone).1
  · intro h
    exact hnot (h "'a' + 'b'")

end EntityModel
