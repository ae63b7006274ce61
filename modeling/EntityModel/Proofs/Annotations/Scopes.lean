import EntityModel.Proofs.Entity.Fates

/-!
# Scopes of annotations

An annotation leaves entries in the namespace of its name. If all annotations that are applied may
stand in a scope, the namespaces that they leave are names of such kinds. On a link every annotation
leaves an entry, so that the namespaces tell which annotations have been applied.
-/

namespace EntityModel

namespace ParamBag

variable {bag : ParamBag} {scope : Scope} {uses : List AnnotationUse}

theorem has_set (bag : ParamBag) (owner key : String) (value : ParamValue) (other : String) :
    (bag.set owner key value).has other = true ↔ other = owner ∨ bag.has other = true := by
  simp only [has, set, OrderedMap.contains, OrderedMap.find?_insert]
  by_cases hother : other = owner <;> simp [hother]

/-- Every namespace has the name of a kind that may stand in the scope. -/
def IsScoped (scope : Scope) (bag : ParamBag) : Prop :=
  ∀ owner, bag.has owner = true →
    ∃ kind : AnnotationKind, kind.allows scope = true ∧ kind.name = owner

def Excludes (scope : Scope) (bag : ParamBag) : Prop :=
  ∀ kind : AnnotationKind, kind.allows scope = true → bag.has kind.name = false

theorem isScoped_empty (scope : Scope) : empty.IsScoped scope := by
  intro owner h
  cases h

theorem has_store (kind : AnnotationKind) (entries : List (String × ParamValue)) (bag : ParamBag)
    (owner : String) :
    (kind.store entries bag).has owner = true ↔
      bag.has owner = true ∨ entries ≠ [] ∧ kind.name = owner := by
  induction entries generalizing bag with
  | nil => simp [AnnotationKind.store]
  | cons entry entries ih =>
      have hrest := ih (bag.set kind.name entry.1 entry.2)
      rw [has_set] at hrest
      refine hrest.trans ⟨?_, ?_⟩
      · rintro ((rfl | h) | ⟨-, rfl⟩)
        · exact .inr ⟨List.cons_ne_nil _ _, rfl⟩
        · exact .inl h
        · exact .inr ⟨List.cons_ne_nil _ _, rfl⟩
      · rintro (h | ⟨-, rfl⟩)
        · exact .inl (.inr h)
        · exact .inl (.inl rfl)

theorem has_foldl_store (entries : AnnotationUse → List (String × ParamValue))
    (uses : List AnnotationUse) (bag : ParamBag) (owner : String) :
    (uses.foldl (fun bag use => use.kind.store (entries use) bag) bag).has owner = true ↔
      bag.has owner = true ∨ ∃ use ∈ uses, entries use ≠ [] ∧ use.kind.name = owner := by
  induction uses generalizing bag with
  | nil => simp
  | cons use uses ih => rw [List.foldl_cons, ih, has_store, List.exists_mem_cons_iff, or_assoc]

theorem IsScoped.foldl_store (h : bag.IsScoped scope)
    (entries : AnnotationUse → List (String × ParamValue))
    (huses : ∀ use ∈ uses, use.kind.allows scope = true) :
    (uses.foldl (fun bag use => use.kind.store (entries use) bag) bag).IsScoped scope := by
  intro owner howner
  rcases (has_foldl_store entries uses bag owner).1 howner with hold | ⟨use, huse, -, rfl⟩
  · exact h owner hold
  · exact ⟨use.kind, huses use huse, rfl⟩

theorem excludes_foldl_store (entries : AnnotationUse → List (String × ParamValue))
    (huses : ∀ use ∈ uses, use.kind.allows scope = false) :
    (uses.foldl (fun bag use => use.kind.store (entries use) bag) empty).Excludes scope := by
  intro kind hkind
  refine Bool.eq_false_iff.2 fun h => ?_
  rcases (has_foldl_store entries uses empty kind.name).1 h with hempty | ⟨use, huse, -, hname⟩
  · cases hempty
  · -- the kinds of the registry have different names
    obtain rfl := AnnotationKind.name_injective hname
    rw [huses use huse] at hkind
    cases hkind

end ParamBag

theorem AnnotationKind.not_allows_link_of_onAttribute {kind : AnnotationKind}
    (h : kind.fieldRole true = .onAttribute) : kind.allows .link = false := by
  cases hlink : kind.allows .link with
  | false => rfl
  | true =>
      rw [AnnotationKind.fieldRole_eq_onLink_iff.2 ⟨rfl, hlink⟩] at h
      cases h

namespace Assembly

theorem params_fieldAttribute (field : Statement) (type : NeutralType) (uses : List AnnotationUse)
    (tags : List TagUse) :
    (fieldAttribute field type uses tags).params =
      uses.foldl (fun bag use => use.kind.store (use.kind.attributeEntries use.arguments) bag)
        .empty := by
  have hparams : (fieldAttribute field type uses tags).params =
      ((field.plainAttribute type).applyAll uses).params := rfl
  rw [hparams, Attribute.applyAll_eq]
  rfl

variable (field : Statement) (type : NeutralType) (tags : List TagUse)

theorem isScoped_fieldAttribute :
    (fieldAttribute field type (field.usesFor .onAttribute) tags).params.IsScoped .attribute := by
  rw [params_fieldAttribute]
  refine (ParamBag.isScoped_empty _).foldl_store _ fun use huse => ?_
  have hrole := beq_iff_eq.1 (List.mem_filter.1 huse).2
  exact AnnotationKind.allows_of_onAttribute hrole

theorem excludes_fieldAttribute (h : field.declaresKey = true) :
    (fieldAttribute field type (field.usesFor .onAttribute) tags).params.Excludes .link := by
  rw [params_fieldAttribute]
  refine ParamBag.excludes_foldl_store _ fun use huse => ?_
  have hrole := beq_iff_eq.1 (List.mem_filter.1 huse).2
  rw [h] at hrole
  exact AnnotationKind.not_allows_link_of_onAttribute hrole

end Assembly

theorem Account.IsSound.allows_entity {name : String} {a : Account}
    (h : a.IsSound name) {use : AnnotationUse} (huse : use ∈ a.entityUses) :
    use.kind.allows .entity = true := by
  cases h with
  | ofUnknownType | ofTakenName | ofField => cases huse
  | ofBlock hst hannotations htags =>
      obtain ⟨fate, hfate, happlied⟩ := List.mem_filterMap.1 huse
      obtain ⟨element, -, hof⟩ := exists_of_mem_forall₂ hannotations hfate
      cases hof with
      | applied _ hallows =>
          obtain rfl := Option.some.inj happlied
          exact hallows
      | kept | rejected => cases happlied

theorem AnnotationUse.linkEntries_ne_nil {use : AnnotationUse} {text : String} {line? : Option Nat}
    (hread : ofText text line? = .ok use) (hlink : use.kind.allows .link = true) :
    use.kind.linkEntries use.arguments ≠ [] := by
  obtain ⟨-, ⟨values, hvalues⟩, -⟩ := of_ofText hread
  obtain ⟨kind, arguments, line?⟩ := use
  cases kind with
  | jsonBackReference | jsonIgnore | cascade => exact List.cons_ne_nil _ _
  | fetch =>
      -- a fetch strategy takes exactly one argument
      match values, hvalues with
      | [value], hvalues =>
          obtain rfl := Except.ok.inj hvalues
          exact List.cons_ne_nil _ _
  | _ => cases hlink

end EntityModel
