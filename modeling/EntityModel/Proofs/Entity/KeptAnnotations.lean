import EntityModel.Proofs.Annotations.Scopes
import EntityModel.Proofs.Entity.MergedKeys

/-!
# Annotations kept for links

A foreign key keeps the annotations that its fields declare for the link along it. Of the
annotations of one kind the first in the order of the fields is kept, and on the attributes
themselves none of them is left.
-/

namespace EntityModel

section FirstOccurrences

variable {α : Type} {r : α → α → Bool}

theorem pairwise_eraseDupsBy (l : List α) :
    (l.eraseDupsBy r).Pairwise fun a b => r b a = false := by
  induction l using List.reverseRecOn with
  | nil => exact .nil
  | append_singleton l a ih =>
      rw [eraseDupsBy_concat]
      split
      · exact ih
      · rename_i hnew
        rw [Bool.not_eq_true, List.any_eq_false] at hnew
        refine List.pairwise_append.2 ⟨ih, List.pairwise_singleton _ _, fun b hb c hc => ?_⟩
        obtain rfl := List.mem_singleton.1 hc
        exact Bool.eq_false_iff.2 (hnew b hb)

theorem mem_of_mem_eraseDupsBy {l : List α} {a : α} (h : a ∈ l.eraseDupsBy r) : a ∈ l := by
  induction l using List.reverseRecOn with
  | nil => exact h
  | append_singleton l b ih =>
      rw [eraseDupsBy_concat] at h
      split at h
      · exact List.mem_append_left _ (ih h)
      · rcases List.mem_append.1 h with hold | hlast
        · exact List.mem_append_left _ (ih hold)
        · exact List.mem_append_right _ hlast

theorem eraseDupsBy_append {more : List α} (l : List α)
    (h : more.Pairwise fun a b => r b a = false) :
    (l ++ more).eraseDupsBy r =
      l.eraseDupsBy r ++ more.filter fun a => !(l.eraseDupsBy r).any (r a) := by
  induction more using List.reverseRecOn with
  | nil => simp
  | append_singleton more a ih =>
      obtain ⟨hmore, -, hlast⟩ := List.pairwise_append.1 h
      have hnew : (more.filter fun a => !(l.eraseDupsBy r).any (r a)).any (r a) = false := by
        refine List.any_eq_false.2 fun b hb => ?_
        exact Bool.eq_false_iff.1 (hlast b (List.mem_filter.1 hb).1 a (List.mem_singleton_self a))
      rw [← List.append_assoc, eraseDupsBy_concat, ih hmore, List.any_append, hnew, Bool.or_false,
        List.filter_append]
      cases hold : (l.eraseDupsBy r).any (r a) <;> simp [hold]

theorem eraseDupsBy_eq_self {l : List α} (h : l.Pairwise fun a b => r b a = false) :
    l.eraseDupsBy r = l := by
  have hnil := eraseDupsBy_append [] h
  have hempty : ([] : List α).eraseDupsBy r = [] := rfl
  simpa [hempty] using hnil

end FirstOccurrences

def AnnotationUse.sameKind (use use' : AnnotationUse) : Bool := use'.kind == use.kind

namespace Statement

def linkUses (field : Statement) : List AnnotationUse :=
  field.uses.filter fun use => use.kind.allows .link

def attribute? (field : Statement) : Option Attribute :=
  (NeutralType.ofName? field.typeName).map fun type =>
    { Assembly.fieldAttribute field type (field.usesFor .onAttribute) field.tagUses with
      isForeignKey := field.target?.isSome }

def onKey (entity : String) (fields : List Statement) (ends : String × String) : List Statement :=
  fields.filter fun field => (field.column? entity).any fun column => column.ends == ends

/-- Of the annotations that these fields declare for the link, the first of each kind. -/
def keptUses (entity : String) (fields : List Statement) (ends : String × String) :
    List AnnotationUse :=
  ((onKey entity fields ends).flatMap linkUses).eraseDupsBy AnnotationUse.sameKind

variable {field : Statement} {fields : List Statement} {entity : String} {column : KeyColumn}
  {ends : String × String}

theorem declaresKey_of_target? (h : field.target?.isSome = true) : field.declaresKey = true := by
  obtain ⟨target, htarget⟩ := Option.isSome_iff_exists.1 h
  obtain ⟨use, huse, -⟩ := Option.bind_eq_some_iff.1 htarget
  have hmem := (List.mem_filter.1 (List.mem_of_find?_eq_some huse)).1
  have hkind := List.find?_some huse
  exact List.any_eq_true.2 ⟨use, hmem, hkind⟩

theorem usesFor_onLink (h : field.target?.isSome = true) :
    field.usesFor .onLink = field.linkUses := by
  refine List.filter_congr fun use _ => ?_
  rw [declaresKey_of_target? h, Bool.eq_iff_iff, beq_iff_eq,
    AnnotationKind.fieldRole_eq_onLink_iff, and_iff_right rfl]

theorem pairwise_linkUses (field : Statement) :
    field.linkUses.Pairwise fun use use' => use'.sameKind use = false := by
  have hnodup := nodup_accepted_annotationOutcomes field.annotations
  rw [List.Nodup, List.pairwise_map] at hnodup
  refine (hnodup.sublist List.filter_sublist).imp fun {use use'} hne => ?_
  exact beq_eq_false_iff_ne.2 hne

theorem onKey_concat_of_eq (hcolumn : field.column? entity = some column) :
    onKey entity (fields ++ [field]) column.ends = onKey entity fields column.ends ++ [field] := by
  simp [onKey, hcolumn]

theorem onKey_concat_of_ne (h : ∀ column ∈ field.column? entity, column.ends ≠ ends) :
    onKey entity (fields ++ [field]) ends = onKey entity fields ends := by
  cases hcolumn : field.column? entity with
  | none => simp [onKey, hcolumn]
  | some column => simp [onKey, hcolumn, h column hcolumn]

theorem onKey_eq_nil (h : ends ∉ (fields.filterMap (column? entity)).map KeyColumn.ends) :
    onKey entity fields ends = [] := by
  refine List.filter_eq_nil_iff.2 fun field hfield hany => h ?_
  obtain ⟨column, hcolumn, hends⟩ := (Option.any_eq_true _ _).1 hany
  exact List.mem_map.2 ⟨column, List.mem_filterMap.2 ⟨field, hfield, hcolumn⟩, beq_iff_eq.1 hends⟩

theorem map_name_onKey (entity : String) (fields : List Statement) (ends : String × String) :
    (KeyColumn.bindingsOn (fields.filterMap (column? entity)) ends).map Binding.origin =
      (onKey entity fields ends).map Statement.name := by
  induction fields with
  | nil => rfl
  | cons field fields ih =>
      rw [KeyColumn.bindingsOn] at ih ⊢
      rw [onKey] at ih ⊢
      cases hcolumn : field.column? entity with
      | none => simpa [hcolumn] using ih
      | some column =>
          have horigin : column.binding.origin = field.name := by
            obtain ⟨target, -, rfl⟩ := Option.map_eq_some_iff.1 hcolumn
            rfl
          by_cases hends : column.ends = ends
          · simpa [hcolumn, hends, horigin] using ih
          · simpa [hcolumn, hends] using ih

end Statement

namespace Assembly

variable {s : Assembly} {field : Statement}

theorem attributes_addAttribute (hfree : s.entity.hasField field.name = false)
    (type : NeutralType) :
    (s.addAttribute field type).entity.attributes = s.entity.attributes ++
      [{ fieldAttribute field type (field.usesFor .onAttribute) field.tagUses with
        isForeignKey := field.target?.isSome }] := by
  have hname := name_fieldAttribute field type (field.usesFor .onAttribute) field.tagUses
  have hplain := (frame_fieldAttribute field type (field.usesFor .onAttribute) field.tagUses).2.2
  rw [addAttribute_eq]
  generalize fieldAttribute field type (field.usesFor .onAttribute) field.tagUses = a
    at hname hplain ⊢
  cases field.target? with
  | none =>
      rw [Option.isSome_none, ← hplain]
      rfl
  | some target =>
      have hnew : a.name ∉ s.entity.attributes.map Attribute.name := by
        rw [hname]
        intro hmem
        rw [Entity.hasField_iff.2 (List.mem_append_left _ hmem)] at hfree
        cases hfree
      refine (Entity.attributes_declareForeignKey _ _ _ _ _).trans ?_
      rw [← hname]
      exact Entity.markForeignKey_concat hnew

theorem linkAnnotations_addAttribute {fields : List Statement}
    (hmerges : s.entity.Merges (fields.filterMap (Statement.column? s.entity.name)))
    (hkept : ∀ fk ∈ s.entity.foreignKeys,
      fk.linkAnnotations = Statement.keptUses s.entity.name fields (fk.name, fk.referenced))
    (type : NeutralType) :
    ∀ fk ∈ (s.addAttribute field type).entity.foreignKeys, fk.linkAnnotations =
      Statement.keptUses s.entity.name (fields ++ [field]) (fk.name, fk.referenced) := by
  have hother {fk : ForeignKey} (hfk : fk ∈ s.entity.foreignKeys)
      (hne : ∀ column ∈ field.column? s.entity.name, column.ends ≠ (fk.name, fk.referenced)) :
      fk.linkAnnotations =
        Statement.keptUses s.entity.name (fields ++ [field]) (fk.name, fk.referenced) := by
    rw [Statement.keptUses, Statement.onKey_concat_of_ne hne]
    exact hkept fk hfk
  rw [addAttribute_eq]
  intro fk hfk
  cases htarget : field.target? with
  | none =>
      rw [htarget] at hfk
      exact hother hfk (by simp [Statement.column?, htarget])
  | some target =>
      rw [htarget, Statement.usesFor_onLink (by rw [htarget]; rfl)] at hfk
      let column : KeyColumn :=
        ⟨(target.keyName?.getD (defaultKeyName s.entity.name field.name), target.entity),
          ⟨field.name, target.attribute?⟩⟩
      have hcolumn : field.column? s.entity.name = some column := by
        rw [Statement.column?, htarget, Option.map_some]
      have hadded : (s.entity.addAttribute (fieldAttribute field type
          (field.usesFor .onAttribute) field.tagUses)).Merges
            (fields.filterMap (Statement.column? s.entity.name)) := hmerges.of_foreignKeys_eq rfl
      rcases hadded.of_mem_declareForeignKey column hfk with
        ⟨hold, hne⟩ | ⟨joined, hjoined, hends, rfl⟩ | ⟨hnew, rfl⟩
      · exact hother hold fun _ hother => Option.some.inj (hcolumn.symm.trans hother) ▸ hne
      · have hbefore := hkept joined hjoined
        rw [hends] at hbefore
        simp only [ForeignKey.addBinding, hends, Statement.keptUses]
        rw [Statement.onKey_concat_of_eq hcolumn, List.flatMap_append, List.flatMap_singleton,
          eraseDupsBy_append _ field.pairwise_linkUses, hbefore]
        rfl
      · rw [Statement.keptUses, Statement.onKey_concat_of_eq hcolumn,
          Statement.onKey_eq_nil hnew]
        rw [List.nil_append, List.flatMap_singleton]
        exact (eraseDupsBy_eq_self field.pairwise_linkUses).symm

end Assembly

namespace Entity

/-- The attributes are those that the fields declare. The columns of each foreign key stand on its
fields, and of the annotations of one kind that these declare for the link, it keeps the first. -/
structure KeepsFirst (e : Entity) (fields : List Statement) : Prop where
  attributes : e.attributes = fields.filterMap Statement.attribute?
  columns : ∀ fk ∈ e.foreignKeys, fk.bindings.map Binding.origin =
    (Statement.onKey e.name fields (fk.name, fk.referenced)).map Statement.name
  linkAnnotations : ∀ fk ∈ e.foreignKeys,
    fk.linkAnnotations = Statement.keptUses e.name fields (fk.name, fk.referenced)

theorem attributes_ofStatements (name : String) (statements : List Statement) :
    (ofStatements name statements).1.attributes =
      (Statement.declaring statements).filterMap Statement.attribute? := by
  apply ofStatements_induction
    (P := fun e fields => e.attributes = fields.filterMap Statement.attribute?)
  · rfl
  · intro e e' fields hsame h
    exact hsame.attributes.trans h
  · intro s fields field type _ hfree htype h
    rw [Assembly.attributes_addAttribute hfree, List.filterMap_append, h]
    simp [Statement.attribute?, htype]

theorem linkAnnotations_ofStatements (name : String) (statements : List Statement) :
    ∀ fk ∈ (ofStatements name statements).1.foreignKeys, fk.linkAnnotations =
      Statement.keptUses name (Statement.declaring statements) (fk.name, fk.referenced) := by
  -- The columns of the keys tell the keys apart at each step.
  suffices h : (ofStatements name statements).1.Merges
        ((Statement.declaring statements).filterMap (Statement.column? name)) ∧
      ∀ fk ∈ (ofStatements name statements).1.foreignKeys, fk.linkAnnotations =
        Statement.keptUses name (Statement.declaring statements) (fk.name, fk.referenced) from h.2
  apply ofStatements_induction
    (P := fun e fields => e.Merges (fields.filterMap (Statement.column? name)) ∧
      ∀ fk ∈ e.foreignKeys,
        fk.linkAnnotations = Statement.keptUses name fields (fk.name, fk.referenced))
  · exact ⟨merges_ofName name, by simp [ofName]⟩
  · rintro e e' fields hsame ⟨hmerges, hkept⟩
    refine ⟨hmerges.of_foreignKeys_eq hsame.foreignKeys, ?_⟩
    rw [hsame.foreignKeys]
    exact hkept
  · rintro s fields field type rfl - - ⟨hmerges, hkept⟩
    exact ⟨Assembly.merges_addAttribute_concat hmerges field type,
      Assembly.linkAnnotations_addAttribute hmerges hkept type⟩

theorem keepsFirst_ofStatements (name : String) (statements : List Statement) :
    (ofStatements name statements).1.KeepsFirst (Statement.declaring statements) := by
  have hname := (isStated_ofStatements name statements).2
  have hmerges := merges_ofStatements name statements
  refine ⟨attributes_ofStatements name statements, ?_, ?_⟩
  · intro fk hfk
    rw [hname, hmerges.bindings fk hfk, Statement.map_name_onKey]
  · rw [hname]
    exact linkAnnotations_ofStatements name statements

namespace KeepsFirst

variable {e : Entity} {fields : List Statement} {fk : ForeignKey} {use : AnnotationUse}

theorem of_mem_attributes (h : e.KeepsFirst fields) {a : Attribute} (ha : a ∈ e.attributes) :
    a.params.IsScoped .attribute ∧ (a.isForeignKey = true → a.params.Excludes .link) := by
  rw [h.attributes] at ha
  obtain ⟨field, -, hfield⟩ := List.mem_filterMap.1 ha
  obtain ⟨type, -, rfl⟩ := Option.map_eq_some_iff.1 hfield
  refine ⟨Assembly.isScoped_fieldAttribute field type field.tagUses, fun htarget => ?_⟩
  have hkey := Statement.declaresKey_of_target? htarget
  exact Assembly.excludes_fieldAttribute field type field.tagUses hkey

theorem of_mem_linkAnnotations (h : e.KeepsFirst fields) (hfk : fk ∈ e.foreignKeys)
    (huse : use ∈ fk.linkAnnotations) :
    use.kind.allows .link = true ∧ ∃ text line?, AnnotationUse.ofText text line? = .ok use := by
  rw [h.linkAnnotations fk hfk] at huse
  obtain ⟨field, -, hmem⟩ := List.mem_flatMap.1 (mem_of_mem_eraseDupsBy huse)
  obtain ⟨hmem, hlink⟩ := List.mem_filter.1 hmem
  obtain ⟨element, -, hread⟩ :=
    exists_of_mem_accepted (isOutcome_annotationOutcomes field.annotations) hmem
  exact ⟨hlink, element.text, some element.line, hread⟩

theorem nodup_kinds (h : e.KeepsFirst fields) (hfk : fk ∈ e.foreignKeys) :
    (fk.linkAnnotations.map AnnotationUse.kind).Nodup := by
  rw [h.linkAnnotations fk hfk, List.Nodup, List.pairwise_map]
  refine (pairwise_eraseDupsBy _).imp fun {use use'} hne => ?_
  exact beq_eq_false_iff_ne.1 hne

end KeepsFirst

theorem isScoped_params_ofStatements (name : String) (statements : List Statement) :
    (ofStatements name statements).1.params.IsScoped .entity := by
  obtain ⟨accounts, -, h⟩ := Assembly.exists_balances name statements
  have hentity : (ofStatements name statements).1 = ofAccounts name accounts := h.entity
  have hparams : (ofAccounts name accounts).params =
      ((ofName name).applyAll (accounts.flatMap Account.entityUses)).params := rfl
  rw [hentity, hparams, applyAll_eq]
  refine (ParamBag.isScoped_empty _).foldl_store _ fun use huse => ?_
  obtain ⟨a, ha, hmem⟩ := List.mem_flatMap.1 huse
  exact (h.areExact.sound a ha).allows_entity hmem

end Entity

end EntityModel
