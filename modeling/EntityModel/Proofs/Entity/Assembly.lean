import EntityModel.Proofs.Entity.Accounts
import EntityModel.Proofs.Entity.Declaration

/-!
# Entities of statements

A statement either leaves the fields and keys of an entity as they are, or declares an attribute
whose name is free, and perhaps a column of a foreign key on it. What an entity of statements
satisfies follows from this by induction on the statements.
-/

namespace EntityModel

namespace Entity

structure SameFields (e e' : Entity) : Prop where
  name : e'.name = e.name
  attributes : e'.attributes = e.attributes
  foreignKeys : e'.foreignKeys = e.foreignKeys
  links : e'.links = e.links

theorem SameFields.refl (e : Entity) : SameFields e e := ⟨rfl, rfl, rfl, rfl⟩

theorem SameFields.trans {e e' e'' : Entity} (h : SameFields e e') (h' : SameFields e' e'') :
    SameFields e e'' :=
  ⟨h'.name.trans h.name, h'.attributes.trans h.attributes, h'.foreignKeys.trans h.foreignKeys,
    h'.links.trans h.links⟩

theorem SameFields.isBuilt {e e' : Entity} (h : SameFields e e') (he : e.IsBuilt) : e'.IsBuilt := by
  refine ⟨?_, ?_, ?_⟩
  · rw [h.attributes]
    exact he.nodup_names
  · rw [h.links]
    exact he.links_eq_nil
  · rw [h.attributes, h.foreignKeys]
    exact he.keys

inductive Grows (e : Entity) : Entity → Prop where
  | kept {e' : Entity} (h : SameFields e e') : Grows e e'
  | declared {a : Attribute} (hfree : a.name ∉ e.fieldNames) : Grows e (e.addAttribute a)
  | bound {a : Attribute} (hfree : a.name ∉ e.fieldNames) (keyName referenced : String)
      (attribute? : Option String) (uses : List AnnotationUse) :
      Grows e
        ((e.addAttribute a).declareForeignKey keyName referenced ⟨a.name, attribute?⟩ uses).1

theorem Grows.name {e e' : Entity} (h : Grows e e') : e'.name = e.name := by
  cases h with
  | kept h => exact h.name
  | declared => rfl
  | bound => exact name_declareForeignKey _ _ _ _ _

theorem Grows.isStated {e e' : Entity} (h : Grows e e') (he : e.IsStated) : e'.IsStated := by
  have hnew {a : Attribute} (hfree : a.name ∉ e.fieldNames) : (e.addAttribute a).IsBuilt :=
    he.toIsBuilt.addAttribute fun hmem => hfree (List.mem_append_left _ hmem)
  cases h with
  | kept h =>
      refine ⟨h.isBuilt he.toIsBuilt, ?_⟩
      rw [keyEnds, h.foreignKeys]
      exact he.nodup_keyEnds
  | declared hfree => exact ⟨hnew hfree, he.nodup_keyEnds⟩
  | @bound a hfree keyName referenced attribute? uses =>
      have hmem : a.name ∈ (e.addAttribute a).attributes.map Attribute.name := by
        simp [Entity.addAttribute]
      refine ⟨(hnew hfree).declareForeignKey hmem keyName referenced uses, ?_⟩
      have hends : (e.addAttribute a).keyEnds.Nodup := he.nodup_keyEnds
      exact nodup_keyEnds_declareForeignKey hends keyName referenced _ uses

end Entity

namespace Assembly

open Entity (SameFields Grows)

theorem name_fieldAttribute (field : Statement) (type : NeutralType) (uses : List AnnotationUse)
    (tags : List TagUse) : (fieldAttribute field type uses tags).name = field.name :=
  ((field.plainAttribute type).applyAll_frame uses).1

theorem frame_fieldAttribute (field : Statement) (type : NeutralType) (uses : List AnnotationUse)
    (tags : List TagUse) :
    (fieldAttribute field type uses tags).type = type ∧
      (fieldAttribute field type uses tags).line? = some field.line ∧
        (fieldAttribute field type uses tags).isForeignKey = false :=
  ((field.plainAttribute type).applyAll_frame uses).2

theorem entity_declareKey (s : Assembly) (field : Statement) (target? : Option ForeignKeyTarget)
    (uses : List AnnotationUse) :
    (s.declareKey field target? uses).entity = s.entity ∨
      ∃ keyName referenced attribute?, (s.declareKey field target? uses).entity =
        (s.entity.declareForeignKey keyName referenced ⟨field.name, attribute?⟩ uses).1 := by
  cases target? with
  | none => exact .inl rfl
  | some target => exact .inr ⟨_, target.entity, target.attribute?, rfl⟩

theorem grows_addField (s : Assembly) (field : Statement) :
    Grows s.entity (s.addField field).entity := by
  rw [addField]
  cases NeutralType.ofName? field.typeName with
  | none => exact .kept (.refl _)
  | some type =>
      by_cases hfield : s.entity.hasField field.name = true
      · simp only [hfield, if_true]
        exact .kept (.refl _)
      · have hfree (uses : List AnnotationUse) (tags : List TagUse) :
            (fieldAttribute field type uses tags).name ∉ s.entity.fieldNames := by
          rw [name_fieldAttribute]
          exact fun hmem => hfield (Entity.hasField_iff.2 hmem)
        simp only [hfield, Bool.false_eq_true, if_false, addAttribute]
        rcases entity_declareKey _ field _ _ with hsame | ⟨keyName, referenced, attribute?, hkey⟩
        · rw [hsame]
          exact .declared (hfree _ _)
        · rw [hkey, ← name_fieldAttribute field type]
          exact .bound (hfree _ _) keyName referenced attribute? _

private theorem sameFields_foldl_addBlockUse (block : Statement) (uses : List AnnotationUse)
    (s : Assembly) : SameFields s.entity (uses.foldl (addBlockUse block) s).entity := by
  induction uses generalizing s with
  | nil => exact .refl _
  | cons use uses ih =>
      have hone : SameFields s.entity (addBlockUse block s use).entity := by
        rw [addBlockUse]
        split
        · exact .refl _
        · split
          · exact .refl _
          · exact ⟨rfl, rfl, rfl, rfl⟩
      exact hone.trans (ih (addBlockUse block s use))

private theorem sameFields_foldl_addBlockTag (block : Statement) (tags : List TagUse)
    (s : Assembly) : SameFields s.entity (tags.foldl (addBlockTag block) s).entity := by
  induction tags generalizing s with
  | nil => exact .refl _
  | cons tag tags ih =>
      have hone : SameFields s.entity (addBlockTag block s tag).entity := by
        rw [addBlockTag]
        split
        · exact .refl _
        · exact ⟨rfl, rfl, rfl, rfl⟩
      exact hone.trans (ih (addBlockTag block s tag))

theorem sameFields_addBlock (s : Assembly) (block : Statement) :
    SameFields s.entity (s.addBlock block).entity := by
  rw [addBlock]
  refine SameFields.trans ?_ (sameFields_foldl_addBlockTag block _ _)
  exact sameFields_foldl_addBlockUse block _ (s.report none _)

theorem grows_addStatement (s : Assembly) (statement : Statement) :
    Grows s.entity (s.addStatement statement).entity := by
  rw [addStatement]
  split
  · exact .kept (sameFields_addBlock s statement)
  · exact grows_addField s statement

end Assembly

namespace Entity

theorem isStated_foldl_addStatement {s : Assembly} (hs : s.entity.IsStated)
    (statements : List Statement) :
    (statements.foldl Assembly.addStatement s).entity.IsStated ∧
      (statements.foldl Assembly.addStatement s).entity.name = s.entity.name := by
  induction statements generalizing s with
  | nil => exact ⟨hs, rfl⟩
  | cons statement statements ih =>
      have hgrows := s.grows_addStatement statement
      obtain ⟨hstated, hname⟩ := ih (hgrows.isStated hs)
      exact ⟨hstated, hname.trans hgrows.name⟩

theorem isStated_ofStatements (name : String) (statements : List Statement) :
    (ofStatements name statements).1.IsStated ∧ (ofStatements name statements).1.name = name :=
  isStated_foldl_addStatement (s := .ofName name)
    ⟨isBuilt_ofName name, by simp [keyEnds, Assembly.ofName, ofName]⟩ statements

end Entity

end EntityModel
