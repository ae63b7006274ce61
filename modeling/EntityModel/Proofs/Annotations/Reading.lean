import EntityModel.Annotations.Reading
import EntityModel.Proofs.Success

/-!
# Readings of annotations and tags

What has been read of an annotation or a tag: the entry that its text is, and the values that the
entry lists, all of them and in their order.
-/

namespace EntityModel

theorem Arguments.values_of_ofValues {kind : AnnotationKind} {values : List String}
    {arguments : Arguments} (h : ofValues kind values = .ok arguments) :
    arguments.values = values := by
  unfold ofValues at h
  split at h <;> cases h <;> rfl

/-- An annotation that is read is an entry with the name of its kind. Its arguments are the values
of the entry, in the shape of the kind, and have been checked. -/
structure AnnotationUse.IsOfEntry (use : AnnotationUse) (e : Entry) : Prop where
  kind : AnnotationKind.ofName? e.name = some use.kind
  values : e.values = .ok use.arguments.values
  arguments : Arguments.ofValues use.kind use.arguments.values = .ok use.arguments
  checked : use.kind.check use.arguments = .ok ()

theorem AnnotationUse.isOfEntry_of_ofEntry {e : Entry} {line? : Option Nat} {use : AnnotationUse}
    (h : ofEntry e line? = .ok use) : use.IsOfEntry e ∧ use.line? = line? := by
  rw [ofEntry] at h
  split at h
  · cases h
  · rename_i kind hkind
    obtain ⟨values, hvalues, h⟩ := bind_eq_ok_iff.1 h
    obtain ⟨arguments, harguments, h⟩ := bind_eq_ok_iff.1 h
    obtain ⟨checked, hcheck, h⟩ := bind_eq_ok_iff.1 h
    obtain rfl := Except.ok.inj h
    have hsame := Arguments.values_of_ofValues harguments
    subst hsame
    exact ⟨⟨hkind, mapError_eq_ok_iff.1 hvalues, harguments, hcheck⟩, rfl⟩

theorem AnnotationUse.exists_entry {text : String} {line? : Option Nat} {use : AnnotationUse}
    (h : ofText text line? = .ok use) :
    ∃ e, Entry.ofMarked '@' text.toList = .ok e ∧ use.IsOfEntry e ∧ use.line? = line? := by
  rw [ofText] at h
  obtain ⟨e, hentry, h⟩ := bind_eq_ok_iff.1 h
  exact ⟨e, mapError_eq_ok_iff.1 hentry, isOfEntry_of_ofEntry h⟩

theorem TagUse.exists_entry {text : String} {line? : Option Nat} {use : TagUse}
    (h : ofText text line? = .ok use) :
    ∃ e, Entry.ofMarked '#' text.toList = .ok e ∧ e.name = use.name ∧
      e.values = .ok use.value?.toList := by
  rw [ofText] at h
  obtain ⟨e, hentry, h⟩ := bind_eq_ok_iff.1 h
  refine ⟨e, mapError_eq_ok_iff.1 hentry, ?_⟩
  rw [ofEntry] at h
  obtain ⟨values, hvalues, h⟩ := bind_eq_ok_iff.1 h
  rw [mapError_eq_ok_iff.1 hvalues]
  match values, h with
  | [], h =>
      obtain rfl := Except.ok.inj h
      exact ⟨rfl, rfl⟩
  | [value], h =>
      obtain rfl := Except.ok.inj h
      exact ⟨rfl, rfl⟩

end EntityModel
