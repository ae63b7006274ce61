import EntityModel.Annotations.Effect
import EntityModel.Proofs.Annotations.Reading
import EntityModel.Proofs.Text.Identifier
import Mathlib.Data.List.TakeWhile

/-!
# References of foreign keys

A reference is checked by cutting it at every point, and is read by cutting it at the first. Where
the check succeeds the reading finds an entity and at most one attribute, and nothing is lost: the
target that has been read is written as the reference was.
-/

namespace EntityModel

namespace Path

variable {separator : Char} {cs before : List Char}

theorem splitAt_of_notMem (h : separator ∉ cs) : splitAt separator cs = [cs] := by
  induction cs with
  | nil => rfl
  | cons c rest ih =>
      rw [List.mem_cons, not_or] at h
      rw [splitAt, if_neg (Ne.symm h.1), ih h.2]

theorem splitAt_append (h : separator ∉ before) (after : List Char) :
    splitAt separator (before ++ separator :: after) = before :: splitAt separator after := by
  induction before with
  | nil => rw [List.nil_append, splitAt, if_pos rfl]
  | cons c rest ih =>
      rw [List.mem_cons, not_or] at h
      rw [List.cons_append, splitAt, if_neg (Ne.symm h.1), ih h.2]

theorem splitAt_ne_nil (separator : Char) (cs : List Char) : splitAt separator cs ≠ [] := by
  intro hnil
  by_cases hmem : separator ∈ cs
  · obtain ⟨before, after, rfl, hbefore⟩ := List.eq_append_cons_of_mem hmem
    rw [splitAt_append hbefore] at hnil
    cases hnil
  · rw [splitAt_of_notMem hmem] at hnil
    cases hnil

end Path

namespace ForeignKeyTarget

def reference (target : ForeignKeyTarget) : String :=
  match target.attribute? with
  | some attr => target.entity ++ "." ++ attr
  | none => target.entity

structure IsPlain (target : ForeignKeyTarget) : Prop where
  entity_ne : target.entity ≠ ""
  point_notMem : '.' ∉ target.entity.toList
  of_attribute : ∀ attr ∈ target.attribute?, attr ≠ "" ∧ '.' ∉ attr.toList

section Reference

variable (keyName? : Option String) {text : String} {entity attr : List Char}

theorem ofReference_of_notMem (h : '.' ∉ text.toList) :
    ofReference keyName? text = ⟨keyName?, text, none⟩ := by
  have hdrop : text.toList.dropWhile (· != '.') = [] :=
    List.dropWhile_eq_nil_iff.2 (Text.bne_of_notMem h)
  simp only [ofReference, hdrop]

theorem ofReference_append (htext : text.toList = entity ++ '.' :: attr) (h : '.' ∉ entity) :
    ofReference keyName? text = ⟨keyName?, String.ofList entity, some (String.ofList attr)⟩ := by
  have hentity := Text.bne_of_notMem h
  have hdrop : ('.' :: attr).dropWhile (· != '.') = '.' :: attr := rfl
  have htake : ('.' :: attr).takeWhile (· != '.') = [] := rfl
  simp only [ofReference, htext, List.dropWhile_append_of_pos hentity,
    List.takeWhile_append_of_pos hentity, hdrop, htake, List.append_nil]

theorem reference_ofReference (text : String) : (ofReference keyName? text).reference = text := by
  by_cases hpoint : '.' ∈ text.toList
  · obtain ⟨entity, attr, htext, hentity⟩ := List.eq_append_cons_of_mem hpoint
    rw [ofReference_append keyName? htext hentity, reference]
    apply String.toList_inj.1
    simp [htext]
  · rw [ofReference_of_notMem keyName? hpoint, reference]

theorem keyName?_ofReference (text : String) :
    (ofReference keyName? text).keyName? = keyName? := by
  rw [ofReference]
  split <;> rfl

/-- The check cuts at every point and the reading at the first; they agree on what a reference is. -/
theorem isReference_iff_isPlain :
    isReference text = true ↔ (ofReference keyName? text).IsPlain := by
  by_cases hpoint : '.' ∈ text.toList
  · obtain ⟨entity, attr, htext, hentity⟩ := List.eq_append_cons_of_mem hpoint
    rw [ofReference_append keyName? htext hentity, isReference, htext, Path.splitAt_append hentity]
    by_cases hattr : '.' ∈ attr
    · -- A second point leaves a third piece.
      obtain ⟨middle, rest, rfl, hmiddle⟩ := List.eq_append_cons_of_mem hattr
      rw [Path.splitAt_append hmiddle]
      obtain ⟨piece, more, hrest⟩ := List.exists_cons_of_ne_nil (Path.splitAt_ne_nil '.' rest)
      rw [hrest]
      constructor
      · intro h
        cases h
      · intro h
        exact absurd (h.of_attribute _ rfl).2 (by simp)
    · have hchecked : (!entity.isEmpty && !attr.isEmpty) = true ↔ entity ≠ [] ∧ attr ≠ [] := by
        simp
      rw [Path.splitAt_of_notMem hattr]
      apply hchecked.trans
      constructor
      · intro h
        exact ⟨by simpa using h.1, by simpa using hentity, by simpa using ⟨h.2, hattr⟩⟩
      · intro h
        exact ⟨by simpa using h.entity_ne, by simpa using (h.of_attribute _ rfl).1⟩
  · rw [ofReference_of_notMem keyName? hpoint, isReference, Path.splitAt_of_notMem hpoint]
    constructor
    · intro h
      exact ⟨by simpa using h, hpoint, by simp⟩
    · intro h
      simpa using h.entity_ne

end Reference

end ForeignKeyTarget

namespace AnnotationUse

/-- The use names this target: by its last argument, after the name of the key if that is given.
The same argument is what an attribute keeps of the use. -/
structure RefersTo (use : AnnotationUse) (target : ForeignKeyTarget) : Prop where
  target? : use.foreignKeyTarget? = some target
  values : use.arguments.values = target.keyName?.toList ++ [target.reference]
  isPlain : target.IsPlain
  stored : ∀ a : Attribute, (use.kind.applyToAttribute use.arguments a).params.get?
    AnnotationKind.foreignKey.name "referenced" = some (.text target.reference)

theorem get?_applyToAttribute_foreignKey {arguments : Arguments} {value : String}
    (h : arguments.values.getLast? = some value) (a : Attribute) :
    (AnnotationKind.foreignKey.applyToAttribute arguments a).params.get?
      AnnotationKind.foreignKey.name "referenced" = some (.text value) := by
  have hentries : AnnotationKind.foreignKey.attributeEntries arguments =
      [AnnotationKind.present, ("referenced", .text value)] := by
    simp [AnnotationKind.attributeEntries, AnnotationKind.textEntry, h]
  simp only [AnnotationKind.applyToAttribute, hentries, AnnotationKind.store, List.foldl_cons,
    List.foldl_nil, ParamBag.get?_set, and_self, if_true]

variable {use : AnnotationUse}

theorem refersTo_ofReference (keyName? : Option String) {reference : String}
    (hkind : use.kind = .foreignKey)
    (hvalues : use.arguments.values = keyName?.toList ++ [reference])
    (hreference : isReference reference = true) :
    use.RefersTo (.ofReference keyName? reference) := by
  have hlast : use.arguments.values.getLast? = some reference := by simp [hvalues]
  refine ⟨?_, ?_, (ForeignKeyTarget.isReference_iff_isPlain keyName?).1 hreference, ?_⟩
  · rw [foreignKeyTarget?, hkind, hvalues]
    cases keyName? <;> rfl
  · rw [ForeignKeyTarget.keyName?_ofReference, ForeignKeyTarget.reference_ofReference, hvalues]
  · rw [hkind, ForeignKeyTarget.reference_ofReference]
    exact get?_applyToAttribute_foreignKey hlast

theorem exists_refersTo {text : String} {line? : Option Nat} (h : ofText text line? = .ok use)
    (hkind : use.kind = .foreignKey) : ∃ target, use.RefersTo target := by
  obtain ⟨e, -, hentry, -⟩ := exists_entry h
  have hcheck := hentry.checked
  rw [hkind, AnnotationKind.check, checkForeignKey.eq_def] at hcheck
  split at hcheck
  · rename_i reference hvalues
    split at hcheck
    · rename_i hreference
      exact ⟨_, refersTo_ofReference none hkind hvalues hreference⟩
    · cases hcheck
  · rename_i keyName reference hvalues
    split at hcheck
    · rename_i hreference
      exact ⟨_, refersTo_ofReference (some keyName) hkind hvalues hreference⟩
    · cases hcheck
  · cases hcheck

end AnnotationUse

end EntityModel
