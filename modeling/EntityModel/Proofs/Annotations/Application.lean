import EntityModel.Annotations.Effect

/-!
# Annotations applied one after the other

What several annotations make of a target, field by field: their entries are stored in its
parameters, and of its other fields only the key mark, the default value and the table depend on
them.
-/

namespace EntityModel

namespace Attribute

def applyAll (a : Attribute) (uses : List AnnotationUse) : Attribute :=
  uses.foldl (fun a use => use.kind.applyToAttribute use.arguments a) a

theorem applyAll_eq (a : Attribute) (uses : List AnnotationUse) :
    a.applyAll uses =
      { a with
        isKey := uses.foldl (fun isKey use => isKey || use.kind == .id) a.isKey
        default? := uses.foldl (fun value? use =>
          if use.kind = .defaultValue then use.arguments.first? <|> value? else value?) a.default?
        params := uses.foldl
          (fun bag use => use.kind.store (use.kind.attributeEntries use.arguments) bag) a.params } := by
  induction uses generalizing a with
  | nil => rfl
  | cons use uses ih => exact ih (use.kind.applyToAttribute use.arguments a)

theorem applyAll_frame (a : Attribute) (uses : List AnnotationUse) :
    (a.applyAll uses).name = a.name ∧ (a.applyAll uses).type = a.type ∧
      (a.applyAll uses).line? = a.line? ∧ (a.applyAll uses).isForeignKey = a.isForeignKey := by
  rw [applyAll_eq]
  exact ⟨rfl, rfl, rfl, rfl⟩

end Attribute

namespace Link

def applyAll (l : Link) (uses : List AnnotationUse) : Link :=
  uses.foldl (fun l use => use.kind.applyToLink use.arguments l) l

theorem applyAll_eq (l : Link) (uses : List AnnotationUse) :
    l.applyAll uses =
      { l with
        params := uses.foldl
          (fun bag use => use.kind.store (use.kind.linkEntries use.arguments) bag) l.params } := by
  induction uses generalizing l with
  | nil => rfl
  | cons use uses ih => exact ih (use.kind.applyToLink use.arguments l)

end Link

namespace Entity

def applyAll (e : Entity) (uses : List AnnotationUse) : Entity :=
  uses.foldl (fun e use => use.kind.applyToEntity use.arguments e) e

theorem applyAll_eq (e : Entity) (uses : List AnnotationUse) :
    e.applyAll uses =
      { e with
        table? := uses.foldl (fun value? use =>
          if use.kind = .dbTable then use.arguments.first? <|> value? else value?) e.table?
        params := uses.foldl
          (fun bag use => use.kind.store (use.kind.entityEntries use.arguments) bag) e.params } := by
  induction uses generalizing e with
  | nil => rfl
  | cons use uses ih => exact ih (use.kind.applyToEntity use.arguments e)

theorem applyAll_with (e : Entity) (attributes : List Attribute) (keys : List ForeignKey)
    (tags : Tags) (uses : List AnnotationUse) :
    ({ e with attributes := attributes, foreignKeys := keys, tags := tags } : Entity).applyAll uses =
      { e.applyAll uses with attributes := attributes, foreignKeys := keys, tags := tags } := by
  rw [applyAll_eq, applyAll_eq]

theorem applyAll_frame (e : Entity) (uses : List AnnotationUse) :
    (e.applyAll uses).name = e.name ∧ (e.applyAll uses).links = e.links ∧
      (e.applyAll uses).tags = e.tags := by
  rw [applyAll_eq]
  exact ⟨rfl, rfl, rfl⟩

end Entity

end EntityModel
