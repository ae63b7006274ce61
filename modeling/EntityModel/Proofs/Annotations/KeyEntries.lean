import EntityModel.Proofs.Annotations.Quotation

/-!
# Foreign keys in quotes

The annotation of a foreign key, with its name and its reference in quotes. Whatever the name holds,
the annotation is a single element that is read back.
-/

namespace EntityModel

namespace QuotedText

def keyEntry (name reference : QuotedText) : String :=
  String.ofList ("FK".toList ++ '(' :: (joined [name, reference] ++ [')']))

variable (name reference : QuotedText)

theorem toList_keyEntry : (name.keyEntry reference).toList =
    "FK".toList ++ '(' :: (joined [name, reference] ++ [')']) := String.toList_ofList

theorem joined_pair : joined [name, reference] = name.chars ++ ',' :: reference.chars := rfl

theorem isWellFormed_keyEntry : Element.IsWellFormed (name.keyEntry reference) := by
  have hcomma : Nesting.after? ⟨1, none⟩ ',' = some ⟨1, none⟩ := by decide
  refine Element.isWellFormed_parameters (by decide) ?_
  rw [joined_pair, List.append_assoc, Nesting.afterAll?_chars, List.cons_append,
    Nesting.afterAll?_cons hcomma, Nesting.afterAll?_chars]
  rfl

theorem isTag_keyEntry : Element.isTag (name.keyEntry reference) = false := by
  simp [Element.isTag, toList_keyEntry]

end QuotedText

theorem AnnotationUse.ofText_keyEntry (name reference : QuotedText)
    (h : isReference reference.text = true) (line? : Option Nat) :
    AnnotationUse.ofText (name.keyEntry reference) line? =
      .ok ⟨.foreignKey, .list [name.text, reference.text], line?⟩ := by
  have hentry : Entry.ofMarked '@' (name.keyEntry reference).toList =
      .ok ⟨"FK", some (String.ofList (QuotedText.joined [name, reference]))⟩ := by
    rw [QuotedText.toList_keyEntry]
    exact Entry.ofMarked_parameters _ (by decide) (by decide) (by decide)
  have hkind : AnnotationKind.ofName? "FK" = some .foreignKey := by decide
  have hvalues : Entry.values ⟨"FK", some (String.ofList (QuotedText.joined [name, reference]))⟩ =
      .ok [name.text, reference.text] := Entry.values_joined "FK" name [reference]
  have hcheck : AnnotationKind.foreignKey.check (.list [name.text, reference.text]) = .ok () := by
    simp [AnnotationKind.check, Arguments.values, checkForeignKey, h]
  rw [ofText, hentry]
  simp only [mapError_ok, bind, Except.bind, ofEntry, hkind, hvalues, Arguments.ofValues,
    AnnotationKind.shape, hcheck]
  rfl

namespace Element

/-- The characters of an element, with a blank after each comma and slash outside quotes. -/
def aired (quote? : Option Char) : List Char → List Char
  | [] => []
  | c :: rest =>
      if quote? = none ∧ (c = ',' ∨ c = '/') then c :: ' ' :: aired none rest
      else c :: aired (Text.quoteAfter quote? c) rest

theorem spells_aired (quote? : Option Char) (cs : List Char) :
    Spells quote? cs (aired quote? cs) := by
  induction cs generalizing quote? with
  | nil => exact .nil quote?
  | cons c rest ih =>
      rw [aired]
      split
      · rename_i hmark
        obtain ⟨rfl, hc⟩ := hmark
        have hquote : Text.quoteAfter none c = none := by
          rcases hc with rfl | rfl <;> decide
        refine .char (by simp) ?_
        rw [hquote]
        exact .layout (by decide) (by decide) (ih none)
      · rename_i hmark
        exact .char (fun hquote hc => absurd ⟨hquote, .inr hc⟩ hmark) (ih _)

def Spelling.airy : Spelling := ⟨fun text => aired none text.toList, fun _ _ => spells_aired _ _⟩

theorem keeps_aired : Keeps aired [',', '/'] := by
  refine ⟨fun quote? c rest hc => ?_, by simp [Text.isQuote]⟩
  rw [aired, if_neg]
  rintro ⟨hquote, hmark⟩
  exact hc hquote (by simpa using hmark)

theorem write_airy_keyEntry (name reference : QuotedText) :
    Spelling.airy.write (name.keyEntry reference) =
      "FK(".toList ++ name.chars ++ ", ".toList ++ reference.chars ++ ")".toList := by
  have hentry : (name.keyEntry reference).toList =
      "FK(".toList ++ (name.chars ++ ',' :: (reference.chars ++ [')'])) := by
    simp [QuotedText.toList_keyEntry, QuotedText.joined_pair]
  have hmarks : ∀ c ∈ "FK(".toList, c ∉ [',', '/'] ∧ Text.isQuote c = false := by
    simp [Text.isQuote]
  have haired : Spelling.airy.write (name.keyEntry reference) =
      aired none (name.keyEntry reference).toList := rfl
  rw [haired, hentry, keeps_aired.append hmarks, keeps_aired.chars, aired, if_pos (by simp),
    keeps_aired.chars]
  simp [aired]

end Element

end EntityModel
