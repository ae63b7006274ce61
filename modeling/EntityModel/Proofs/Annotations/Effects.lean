import Mathlib.Data.List.Nodup
import EntityModel.Proofs.Annotations.Application
import EntityModel.Proofs.Json.MemberOrder

/-!
# Effects of annotations

Applied to an attribute, a link or an entity, an annotation changes the namespace of its name and,
for three kinds, one field of the target. Different kinds have different names, so annotations of
different kinds may be applied in any order: each namespace sees at most one of them.
-/

namespace EntityModel

namespace AnnotationKind

variable {kind : AnnotationKind} {arguments : Arguments} {scope : Scope}

def entriesOn (kind : AnnotationKind) (scope : Scope) (arguments : Arguments) :
    List (String × ParamValue) :=
  match scope with
  | .attribute => kind.attributeEntries arguments
  | .link => kind.linkEntries arguments
  | .entity => kind.entityEntries arguments

theorem entriesOn_eq_nil (h : kind.allows scope = false) : kind.entriesOn scope arguments = [] := by
  cases scope <;> cases kind <;> first | rfl | cases h

private theorem ne_of_not_allows {other : AnnotationKind} (h : kind.allows scope = false)
    (hother : other.allows scope = true) : kind ≠ other := by
  intro heq
  rw [heq, hother] at h
  cases h

theorem applyToAttribute_eq_self (h : kind.allows .attribute = false) (a : Attribute) :
    kind.applyToAttribute arguments a = a := by
  have hentries : kind.attributeEntries arguments = [] := entriesOn_eq_nil h
  have hid : (kind == .id) = false := beq_eq_false_iff_ne.2 (ne_of_not_allows h rfl)
  have hdefault : kind ≠ .defaultValue := ne_of_not_allows h rfl
  rw [applyToAttribute, hentries, hid, if_neg hdefault, Bool.or_false]
  rfl

theorem applyToLink_eq_self (h : kind.allows .link = false) (l : Link) :
    kind.applyToLink arguments l = l := by
  have hentries : kind.linkEntries arguments = [] := entriesOn_eq_nil h
  rw [applyToLink, hentries]
  rfl

theorem applyToEntity_eq_self (h : kind.allows .entity = false) (e : Entity) :
    kind.applyToEntity arguments e = e := by
  have hentries : kind.entityEntries arguments = [] := entriesOn_eq_nil h
  have htable : kind ≠ .dbTable := ne_of_not_allows h rfl
  rw [applyToEntity, hentries, if_neg htable]
  rfl

end AnnotationKind

theorem OrderedMap.filter_insert {α β : Type} [DecidableEq α] (m : OrderedMap α β) (k : α) (v : β) :
    (m.insert k v).entries.filter (fun e => e.1 ≠ k) = m.entries.filter fun e => e.1 ≠ k := by
  rw [insert]
  split
  · simp only [modify]
    induction m.entries with
    | nil => rfl
    | cons e rest ih => by_cases hk : e.1 = k <;> simpa [hk] using ih
  · simp

namespace ParamBag

/-- The bags differ in the namespace of the owner at most: the others have the same values in the
same order. -/
def AgreesOutside (owner : String) (bag bag' : ParamBag) : Prop :=
  bag'.namespaces.entries.filter (fun e => e.1 ≠ owner) =
    bag.namespaces.entries.filter fun e => e.1 ≠ owner

theorem agreesOutside_store (kind : AnnotationKind) (entries : List (String × ParamValue))
    (bag : ParamBag) : bag.AgreesOutside kind.name (kind.store entries bag) := by
  induction entries generalizing bag with
  | nil => rfl
  | cons entry entries ih =>
      have hrest := ih (bag.set kind.name entry.1 entry.2)
      rw [AgreesOutside, set, OrderedMap.filter_insert] at hrest
      exact hrest

/-- The namespace of an owner after entries have been stored there, which begin it if need be. -/
def storedIn (entries : List (String × ParamValue)) (space? : Option (OrderedMap String ParamValue)) :
    Option (OrderedMap String ParamValue) :=
  entries.foldl (fun space? (key, value) => some ((space?.getD .empty).insert key value)) space?

theorem find?_store (kind : AnnotationKind) (entries : List (String × ParamValue)) (bag : ParamBag)
    (owner : String) :
    (kind.store entries bag).namespaces.find? owner =
      if kind.name = owner then storedIn entries (bag.namespaces.find? owner)
      else bag.namespaces.find? owner := by
  induction entries generalizing bag with
  | nil =>
      rw [AnnotationKind.store, storedIn]
      split <;> rfl
  | cons entry entries ih =>
      refine (ih (bag.set kind.name entry.1 entry.2)).trans ?_
      rw [set, OrderedMap.find?_insert]
      by_cases howner : kind.name = owner
      · subst howner
        simp only [if_pos]
        rfl
      · simp only [if_neg howner, if_neg (Ne.symm howner)]

structure HasStored (kind : AnnotationKind) (entries : List (String × ParamValue))
    (bag bag' : ParamBag) : Prop where
  outside : bag.AgreesOutside kind.name bag'
  space : bag'.namespaces.find? kind.name = storedIn entries (bag.namespaces.find? kind.name)

theorem hasStored_store (kind : AnnotationKind) (entries : List (String × ParamValue))
    (bag : ParamBag) : HasStored kind entries bag (kind.store entries bag) := by
  refine ⟨agreesOutside_store kind entries bag, ?_⟩
  rw [find?_store, if_pos rfl]

end ParamBag

/-- The second attribute is the first with an annotation applied: one namespace, the key mark and
the default value are all that may differ. -/
structure Attribute.ChangesBy (kind : AnnotationKind) (arguments : Arguments) (a a' : Attribute) :
    Prop where
  params : ParamBag.HasStored kind (kind.attributeEntries arguments) a.params a'.params
  isKey : a'.isKey = (a.isKey || kind == .id)
  default? : a'.default? =
    if kind = .defaultValue then arguments.first?.or a.default? else a.default?
  others : { a with params := a'.params, isKey := a'.isKey, default? := a'.default? } = a'

structure Link.ChangesBy (kind : AnnotationKind) (arguments : Arguments) (l l' : Link) : Prop where
  params : ParamBag.HasStored kind (kind.linkEntries arguments) l.params l'.params
  others : { l with params := l'.params } = l'

structure Entity.ChangesBy (kind : AnnotationKind) (arguments : Arguments) (e e' : Entity) :
    Prop where
  params : ParamBag.HasStored kind (kind.entityEntries arguments) e.params e'.params
  table? : e'.table? = if kind = .dbTable then arguments.first?.or e.table? else e.table?
  others : { e with params := e'.params, table? := e'.table? } = e'

namespace AnnotationKind

variable (kind : AnnotationKind) (arguments : Arguments)

theorem changesBy_applyToAttribute (a : Attribute) :
    a.ChangesBy kind arguments (kind.applyToAttribute arguments a) := by
  refine ⟨ParamBag.hasStored_store _ _ _, rfl, ?_, rfl⟩
  cases harguments : arguments.first? <;> simp [applyToAttribute, harguments]

theorem changesBy_applyToLink (l : Link) : l.ChangesBy kind arguments (kind.applyToLink arguments l) :=
  ⟨ParamBag.hasStored_store _ _ _, rfl⟩

theorem changesBy_applyToEntity (e : Entity) :
    e.ChangesBy kind arguments (kind.applyToEntity arguments e) := by
  refine ⟨ParamBag.hasStored_store _ _ _, ?_, rfl⟩
  cases harguments : arguments.first? <;> simp [applyToEntity, harguments]

end AnnotationKind

/-- A step that acts for one kind only can be exchanged with those for other kinds, so a run of
steps for different kinds does not depend on their order. -/
theorem foldl_eq_of_distinct_kinds {σ : Type} {f : σ → AnnotationUse → σ}
    (hcomm : ∀ s (use use' : AnnotationUse), use.kind ≠ use'.kind →
      f (f s use) use' = f (f s use') use)
    {uses uses' : List AnnotationUse} (hperm : uses.Perm uses')
    (hnodup : (uses.map AnnotationUse.kind).Nodup) (s : σ) : uses.foldl f s = uses'.foldl f s := by
  apply hperm.foldl_eq'
  intro use huse use' huse' s
  by_cases hsame : use = use'
  · rw [hsame]
  · apply hcomm
    intro hkind
    exact hsame (List.inj_on_of_nodup_map hnodup huse huse' hkind)

private theorem rel_self {α : Type} {r : α → α → Prop} (h : ∀ a, r a a) (o : Option α) :
    Option.Rel r o o := by
  cases o with
  | none => exact .none
  | some a => exact .some (h a)

theorem OrderedMap.Agrees.refl {α β : Type} [DecidableEq α] (m : OrderedMap α β) :
    OrderedMap.Agrees Eq m m := fun _ => rel_self Eq.refl _

theorem ParamBag.Agrees.refl (bag : ParamBag) : bag.Agrees bag :=
  fun _ => rel_self OrderedMap.Agrees.refl _

theorem Attribute.Agrees.refl (a : Attribute) : a.Agrees a := ⟨.refl _, .refl _, rfl⟩

theorem Link.Agrees.refl (l : Link) : l.Agrees l := ⟨.refl _, rfl⟩

section Order

variable {uses uses' : List AnnotationUse}

namespace ParamBag

theorem find?_foldl_store (entries : AnnotationUse → List (String × ParamValue))
    (uses : List AnnotationUse) (bag : ParamBag) (owner : String) :
    (uses.foldl (fun bag use => use.kind.store (entries use) bag) bag).namespaces.find? owner =
      uses.foldl (fun space? use =>
        if use.kind.name = owner then storedIn (entries use) space? else space?)
        (bag.namespaces.find? owner) := by
  induction uses generalizing bag with
  | nil => rfl
  | cons use uses ih => rw [List.foldl_cons, List.foldl_cons, ih, find?_store]

theorem find?_foldl_store_of_perm (entries : AnnotationUse → List (String × ParamValue))
    (hperm : uses.Perm uses') (hnodup : (uses.map AnnotationUse.kind).Nodup) (bag : ParamBag)
    (owner : String) :
    (uses.foldl (fun bag use => use.kind.store (entries use) bag) bag).namespaces.find? owner =
      (uses'.foldl (fun bag use => use.kind.store (entries use) bag) bag).namespaces.find?
        owner := by
  rw [find?_foldl_store, find?_foldl_store]
  refine foldl_eq_of_distinct_kinds ?_ hperm hnodup _
  intro space? use use' hkinds
  -- different kinds have different names, so at most one of the two owns the namespace
  by_cases huse : use.kind.name = owner
  · have huse' : use'.kind.name ≠ owner := by
      intro hname
      exact hkinds (AnnotationKind.name_injective (huse.trans hname.symm))
    simp only [if_neg huse']
  · simp only [if_neg huse]

theorem foldl_store_agrees (entries : AnnotationUse → List (String × ParamValue))
    (hperm : uses.Perm uses') (hnodup : (uses.map AnnotationUse.kind).Nodup) (bag : ParamBag) :
    (uses.foldl (fun bag use => use.kind.store (entries use) bag) bag).Agrees
      (uses'.foldl (fun bag use => use.kind.store (entries use) bag) bag) := by
  intro owner
  rw [find?_foldl_store_of_perm entries hperm hnodup]
  exact rel_self OrderedMap.Agrees.refl _

end ParamBag

theorem foldl_first?_of_perm (kind : AnnotationKind) (hperm : uses.Perm uses')
    (hnodup : (uses.map AnnotationUse.kind).Nodup) (value? : Option String) :
    uses.foldl (fun value? use =>
        if use.kind = kind then use.arguments.first? <|> value? else value?) value? =
      uses'.foldl (fun value? use =>
        if use.kind = kind then use.arguments.first? <|> value? else value?) value? := by
  refine foldl_eq_of_distinct_kinds ?_ hperm hnodup value?
  intro value? use use' hkinds
  by_cases huse : use.kind = kind
  · have huse' : use'.kind ≠ kind := by
      intro hkind
      exact hkinds (huse.trans hkind.symm)
    simp only [if_neg huse']
  · simp only [if_neg huse]

end Order

namespace Attribute

theorem applyAll_agrees {uses uses' : List AnnotationUse} (hperm : uses.Perm uses')
    (hnodup : (uses.map AnnotationUse.kind).Nodup) (a : Attribute) :
    (a.applyAll uses).Agrees (a.applyAll uses') := by
  have hkey : uses.foldl (fun isKey use => isKey || use.kind == .id) a.isKey =
      uses'.foldl (fun isKey use => isKey || use.kind == .id) a.isKey := by
    refine foldl_eq_of_distinct_kinds ?_ hperm hnodup a.isKey
    intro isKey use use' _
    exact Bool.or_right_comm isKey (use.kind == .id) (use'.kind == .id)
  have hdefault := foldl_first?_of_perm .defaultValue hperm hnodup a.default?
  rw [applyAll_eq, applyAll_eq, hkey, hdefault]
  exact ⟨ParamBag.foldl_store_agrees _ hperm hnodup a.params, .refl a.tags, rfl⟩

end Attribute

namespace Link

theorem applyAll_agrees {uses uses' : List AnnotationUse} (hperm : uses.Perm uses')
    (hnodup : (uses.map AnnotationUse.kind).Nodup) (l : Link) :
    (l.applyAll uses).Agrees (l.applyAll uses') := by
  rw [applyAll_eq, applyAll_eq]
  exact ⟨ParamBag.foldl_store_agrees _ hperm hnodup l.params, rfl⟩

end Link

namespace Entity

theorem applyAll_agrees {uses uses' : List AnnotationUse} (hperm : uses.Perm uses')
    (hnodup : (uses.map AnnotationUse.kind).Nodup) (e : Entity) :
    (e.applyAll uses).Agrees (e.applyAll uses') := by
  have htable := foldl_first?_of_perm .dbTable hperm hnodup e.table?
  rw [applyAll_eq, applyAll_eq, htable]
  refine ⟨?_, ?_, ParamBag.foldl_store_agrees _ hperm hnodup e.params, .refl e.tags, rfl⟩
  · exact List.forall₂_same.2 fun a _ => .refl a
  · exact List.forall₂_same.2 fun l _ => .refl l

end Entity

namespace AnnotationKind

/-- An annotation leaves a target alone that it may not stand on. Of any other it changes the
namespace of its name, and the key mark, the default value or the table if its kind is the one that
sets them. Annotations of different kinds may therefore be applied in any order. -/
theorem effects_are_local_and_commute :
    (∀ (kind : AnnotationKind) (arguments : Arguments),
      (∀ a : Attribute, a.ChangesBy kind arguments (kind.applyToAttribute arguments a) ∧
        (kind.allows .attribute = false → kind.applyToAttribute arguments a = a)) ∧
      (∀ l : Link, l.ChangesBy kind arguments (kind.applyToLink arguments l) ∧
        (kind.allows .link = false → kind.applyToLink arguments l = l)) ∧
      ∀ e : Entity, e.ChangesBy kind arguments (kind.applyToEntity arguments e) ∧
        (kind.allows .entity = false → kind.applyToEntity arguments e = e)) ∧
    ∀ uses uses' : List AnnotationUse, uses.Perm uses' → (uses.map AnnotationUse.kind).Nodup →
      (∀ a : Attribute, (a.applyAll uses).Agrees (a.applyAll uses')) ∧
      (∀ l : Link, (l.applyAll uses).Agrees (l.applyAll uses')) ∧
      ∀ e : Entity, (e.applyAll uses).Agrees (e.applyAll uses') := by
  refine ⟨fun kind arguments => ⟨fun a => ?_, fun l => ?_, fun e => ?_⟩, ?_⟩
  · exact ⟨changesBy_applyToAttribute kind arguments a, fun h => applyToAttribute_eq_self h a⟩
  · exact ⟨changesBy_applyToLink kind arguments l, fun h => applyToLink_eq_self h l⟩
  · exact ⟨changesBy_applyToEntity kind arguments e, fun h => applyToEntity_eq_self h e⟩
  · intro uses uses' hperm hnodup
    exact ⟨Attribute.applyAll_agrees hperm hnodup, Link.applyAll_agrees hperm hnodup,
      Entity.applyAll_agrees hperm hnodup⟩

/-- A bound and a default value in two orders: the namespaces come in different orders, and that is
all. On the link of the field neither leaves anything. -/
theorem effects_are_local_and_commute_bounded :
    let bound : AnnotationUse := ⟨.max, .single "9", some 1⟩
    let preset : AnnotationUse := ⟨.defaultValue, .single "7", some 2⟩
    let a := Attribute.ofType "rating" .integer
    let l := Link.ofCardinality "book" "Book" .manyToOne
    [bound, preset].Perm [preset, bound] ∧ ([bound, preset].map AnnotationUse.kind).Nodup ∧
      max.allows .link = false ∧ max.applyToLink bound.arguments l = l ∧
      (a.applyAll [bound, preset]).params.namespaces.keys = ["Max", "DefaultValue"] ∧
      (a.applyAll [preset, bound]).params.namespaces.keys = ["DefaultValue", "Max"] ∧
      (a.applyAll [bound, preset]).Agrees (a.applyAll [preset, bound]) := by
  intro bound preset a l
  have hperm : [bound, preset].Perm [preset, bound] := .swap preset bound []
  have hnodup : ([bound, preset].map AnnotationUse.kind).Nodup := by decide
  obtain ⟨hlocal, hcommute⟩ := effects_are_local_and_commute
  exact ⟨hperm, hnodup, rfl, ((hlocal max bound.arguments).2.1 l).2 rfl, by decide, by decide,
    (hcommute _ _ hperm hnodup).1 a⟩

end AnnotationKind

end EntityModel
