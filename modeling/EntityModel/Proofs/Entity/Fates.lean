import EntityModel.Proofs.Annotations.References
import EntityModel.Proofs.Entity.Accounts
import EntityModel.Proofs.Entity.Outcomes
import Mathlib.Data.List.Nodup

/-!
# Fates of annotations and tags

What a field makes of the annotations that have been read for it, and what the blocks of an entity
make of theirs one after the other.
-/

namespace EntityModel

theorem AnnotationUse.of_ofText {text : String} {line? : Option Nat} {use : AnnotationUse}
    (h : ofText text line? = .ok use) :
    use.line? = line? ∧ (∃ values, Arguments.ofValues use.kind values = .ok use.arguments) ∧
      use.kind.check use.arguments = .ok () := by
  obtain ⟨e, -, hentry, hline⟩ := exists_entry h
  exact ⟨hline, ⟨use.arguments.values, hentry.arguments⟩, hentry.checked⟩

theorem AnnotationUse.isSome_foreignKeyTarget? {text : String} {line? : Option Nat}
    {use : AnnotationUse} (h : ofText text line? = .ok use) (hkind : use.kind = .foreignKey) :
    use.foreignKeyTarget?.isSome = true := by
  obtain ⟨target, htarget⟩ := exists_refersTo h hkind
  rw [htarget.target?]
  rfl

namespace AnnotationKind

variable {kind : AnnotationKind} {isRelationship : Bool}

theorem fieldRole_eq_onLink_iff :
    kind.fieldRole isRelationship = .onLink ↔ isRelationship = true ∧ kind.allows .link = true := by
  rw [fieldRole]
  cases isRelationship <;> cases kind.allows .link <;> cases kind.allows .attribute <;> simp

theorem allows_of_onAttribute (h : kind.fieldRole isRelationship = .onAttribute) :
    kind.allows .attribute = true := by
  rw [fieldRole] at h
  split at h
  · cases h
  · split at h
    · assumption
    · split at h <;> cases h

theorem kind_of_refused {problem : Problem}
    (h : kind.fieldRole isRelationship = .refused problem) : problem.kind = .entry := by
  rw [fieldRole] at h
  split at h
  · cases h
  · split at h
    · cases h
    · split at h <;> cases h <;> rfl

end AnnotationKind

/-- What becomes of an annotation that a field can be read to carry, if its key is named so and
carries these already. -/
def fieldFate (field : Statement) (isRelationship : Bool) (keyName : String)
    (carried : AnnotationUse → Bool) (use : AnnotationUse) : Fate :=
  match use.kind.fieldRole isRelationship with
  | .onLink =>
      if carried use then
        .rejected ⟨use.line?.getD field.line, .repeatedOnKey use.kind keyName⟩
      else .kept use
  | .onAttribute => .applied use
  | .refused problem => .rejected ⟨use.line?.getD field.line, problem⟩

section FieldFate

variable (field : Statement) (isRelationship : Bool) (keyName : String)
  (carried : AnnotationUse → Bool) (uses : List AnnotationUse)

theorem ofAnnotation_fieldFate {e : Element} {use : AnnotationUse}
    (hread : AnnotationUse.ofText e.text (some e.line) = .ok use) :
    Fate.OfAnnotation .attribute e (fieldFate field isRelationship keyName carried use) := by
  have hline : use.line?.getD field.line = e.line := by
    rw [(AnnotationUse.of_ofText hread).1, Option.getD_some]
  rw [fieldFate]
  cases hrole : use.kind.fieldRole isRelationship with
  | onLink =>
      have hallows := (AnnotationKind.fieldRole_eq_onLink_iff.1 hrole).2
      cases carried use with
      | true => exact .rejected hline rfl
      | false => exact .kept hread rfl hallows
  | onAttribute => exact .applied hread (AnnotationKind.allows_of_onAttribute hrole)
  | refused problem => exact .rejected hline (AnnotationKind.kind_of_refused hrole)

theorem applied_fieldFate :
    (uses.map (fieldFate field isRelationship keyName carried)).filterMap Fate.applied? =
      uses.filter fun use => use.kind.fieldRole isRelationship == .onAttribute := by
  induction uses with
  | nil => rfl
  | cons use uses ih =>
      rw [List.map_cons, List.filterMap_cons, ih, List.filter_cons, fieldFate]
      cases use.kind.fieldRole isRelationship with
      | onLink => cases carried use <;> rfl
      | onAttribute => rfl
      | refused problem => rfl

theorem kept_fieldFate :
    (uses.map (fieldFate field isRelationship keyName carried)).filterMap Fate.kept? =
      (uses.filter fun use => use.kind.fieldRole isRelationship == .onLink).filter
        fun use => !carried use := by
  induction uses with
  | nil => rfl
  | cons use uses ih =>
      rw [List.map_cons, List.filterMap_cons, ih, List.filter_cons, fieldFate]
      cases use.kind.fieldRole isRelationship with
      | onLink => cases hcarried : carried use <;> simp [hcarried, Fate.kept?]
      | onAttribute => rfl
      | refused problem => rfl

theorem rejection_fieldFate :
    ((uses.map (fieldFate field isRelationship keyName carried)).filterMap
        Fate.rejection?).Perm
      (uses.filterMap (Assembly.fieldRejection? field isRelationship) ++
        ((uses.filter fun use => use.kind.fieldRole isRelationship == .onLink).filter carried).map
          fun use => ⟨use.line?.getD field.line, .repeatedOnKey use.kind keyName⟩) := by
  induction uses with
  | nil => exact .nil
  | cons use uses ih =>
      rw [List.map_cons, List.filterMap_cons, List.filterMap_cons, List.filter_cons, fieldFate,
        Assembly.fieldRejection?]
      cases use.kind.fieldRole isRelationship with
      | onLink =>
          cases hcarried : carried use with
          | true => simpa [hcarried, Fate.rejection?] using (ih.cons _).trans List.perm_middle.symm
          | false => simpa [hcarried, Fate.rejection?] using ih
      | onAttribute => exact ih
      | refused problem => exact ih.cons _

end FieldFate

namespace Statement

variable (field : Statement)

def uses : List AnnotationUse := accepted (annotationOutcomes [] field.annotations)

def tagUses : List TagUse := accepted (tagOutcomes [] field.tags)

def declaresKey : Bool := field.uses.any fun use => use.kind == .foreignKey

def usesFor (role : FieldRole) : List AnnotationUse :=
  field.uses.filter fun use => use.kind.fieldRole field.declaresKey == role

def refusals : List Rejection :=
  field.uses.filterMap (Assembly.fieldRejection? field field.declaresKey)

def target? : Option ForeignKeyTarget :=
  ((field.usesFor .onAttribute).find? fun use => use.kind == .foreignKey).bind
    AnnotationUse.foreignKeyTarget?

theorem declaresKey_of_mem {use : AnnotationUse} (huse : use ∈ field.uses)
    (hkind : use.kind = .foreignKey) : field.declaresKey = true :=
  List.any_eq_true.2 ⟨use, huse, beq_iff_eq.2 hkind⟩

theorem target?_eq {use : AnnotationUse} (huse : use ∈ field.uses)
    (hkind : use.kind = .foreignKey) : field.target? = use.foreignKeyTarget? := by
  have hrole : (use.kind.fieldRole field.declaresKey == .onAttribute) = true := by
    rw [hkind, field.declaresKey_of_mem huse hkind]
    decide
  have hmem : use ∈ field.usesFor .onAttribute := List.mem_filter.2 ⟨huse, hrole⟩
  have hfound : ((field.usesFor .onAttribute).find? fun use => use.kind == .foreignKey).isSome =
      true := List.find?_isSome.2 ⟨use, hmem, beq_iff_eq.2 hkind⟩
  obtain ⟨first, hfirst⟩ := Option.isSome_iff_exists.1 hfound
  have hfirstKind : first.kind = .foreignKey := by simpa using List.find?_some hfirst
  have hsame : first = use :=
    List.inj_on_of_nodup_map (nodup_accepted_annotationOutcomes field.annotations)
      (List.mem_filter.1 (List.mem_of_find?_eq_some hfirst)).1 huse (hfirstKind.trans hkind.symm)
  rw [target?, hfirst, hsame, Option.bind_some]

theorem isSome_target? (h : field.declaresKey = true) : field.target?.isSome = true := by
  obtain ⟨use, huse, hkind⟩ := List.any_eq_true.1 h
  rw [beq_iff_eq] at hkind
  obtain ⟨e, -, hread⟩ :=
    exists_of_mem_accepted (isOutcome_annotationOutcomes field.annotations) huse
  rw [field.target?_eq huse hkind]
  exact AnnotationUse.isSome_foreignKeyTarget? hread hkind

theorem usesFor_onLink_eq_nil (h : field.target? = none) : field.usesFor .onLink = [] := by
  refine List.filter_eq_nil_iff.2 fun use _ hrole => ?_
  have hkey := (AnnotationKind.fieldRole_eq_onLink_iff.1 (beq_iff_eq.1 hrole)).1
  have htarget := field.isSome_target? hkey
  rw [h] at htarget
  cases htarget

def rejections (keyName : String) (carried : AnnotationUse → Bool) : List Rejection :=
  rejected (annotationOutcomes [] field.annotations) ++ field.refusals ++
      rejected (tagOutcomes [] field.tags) ++
    ((field.usesFor .onLink).filter carried).map fun use =>
      ⟨use.line?.getD field.line, .repeatedOnKey use.kind keyName⟩

/-- One fate for each element of a field, when its key is named so and carries what is said. -/
structure Settles (keyName : String) (carried : AnnotationUse → Bool)
    (annotations tags : List Fate) : Prop where
  each_annotation : field.annotations.Forall₂ (Fate.OfAnnotation .attribute) annotations
  each_tag : field.tags.Forall₂ (Fate.OfTag field.line) tags
  applied : annotations.filterMap Fate.applied? = field.usesFor .onAttribute
  kept : (annotations ++ tags).filterMap Fate.kept? =
    (field.usesFor .onLink).filter fun use => !carried use
  tagged : tags.filterMap Fate.tagged? = field.tagUses
  rejections : ((annotations ++ tags).filterMap Fate.rejection?).Perm
    (field.rejections keyName carried)

def annotationFates (keyName : String) (carried : AnnotationUse → Bool) : List Fate :=
  (annotationOutcomes [] field.annotations).map
    (outcomeFate (fieldFate field field.declaresKey keyName carried))

def tagFates : List Fate := (tagOutcomes [] field.tags).map (outcomeFate .tagged)

theorem settles_fates (keyName : String) (carried : AnnotationUse → Bool) :
    field.Settles keyName carried (field.annotationFates keyName carried) field.tagFates := by
  have htagged : (field.tagUses.map Fate.tagged).filterMap Fate.tagged? = field.tagUses := by
    simp [List.filterMap_map, Fate.tagged?, Function.comp_def]
  have hnoneKept : (field.tagUses.map Fate.tagged).filterMap Fate.kept? = [] := by
    simp [List.filterMap_map, Fate.kept?, Function.comp_def]
  have hnoneRejected : (field.tagUses.map Fate.tagged).filterMap Fate.rejection? = [] := by
    simp [List.filterMap_map, Fate.rejection?, Function.comp_def]
  refine ⟨?_, ?_, ?_, ?_, ?_, ?_⟩
  · refine forall₂_outcomeFate (isOutcome_annotationOutcomes field.annotations) ?_ ?_
    · rintro e use ⟨hread⟩
      exact ofAnnotation_fieldFate field _ keyName carried hread
    · rintro e r (_ | ⟨hline, hkind⟩)
      exact .rejected hline hkind
  · refine forall₂_outcomeFate (isOutcome_tagOutcomes field.tags) ?_ ?_
    · rintro e tag ⟨hread⟩
      exact .tagged hread
    · rintro e r (_ | ⟨hline, hkind⟩)
      exact .rejected (.inl hline) hkind
  · rw [annotationFates, filterMap_outcomeFate fun _ => rfl]
    exact applied_fieldFate field _ keyName carried field.uses
  · have hkept := kept_fieldFate field field.declaresKey keyName carried field.uses
    rw [List.filterMap_append, annotationFates, tagFates, filterMap_outcomeFate fun _ => rfl,
      filterMap_outcomeFate fun _ => rfl]
    exact (congrArg₂ (· ++ ·) hkept hnoneKept).trans (List.append_nil _)
  · rw [tagFates, filterMap_outcomeFate fun _ => rfl]
    exact htagged
  · have hrejected := rejection_fieldFate field field.declaresKey keyName carried field.uses
    have hannotations := rejection_outcomeFate (fieldFate field field.declaresKey keyName carried)
      (annotationOutcomes [] field.annotations)
    have htags := rejection_outcomeFate Fate.tagged (tagOutcomes [] field.tags)
    have hnone : ((accepted (tagOutcomes [] field.tags)).map Fate.tagged).filterMap
        Fate.rejection? = [] := hnoneRejected
    rw [hnone, List.append_nil] at htags
    rw [List.filterMap_append]
    refine (hannotations.append htags).trans (((hrejected.append_left _).append_right _).trans ?_)
    simp only [rejections, List.append_assoc]
    exact ((List.perm_append_comm).append_left _).append_left _

end Statement

theorem Assembly.addAttribute_eq (s : Assembly) (field : Statement) (type : NeutralType) :
    s.addAttribute field type =
      Assembly.declareKey
        { s.report (some field.name) (rejected (annotationOutcomes [] field.annotations) ++
            field.refusals ++ rejected (tagOutcomes [] field.tags)) with
          entity := s.entity.addAttribute
            (fieldAttribute field type (field.usesFor .onAttribute) field.tagUses) }
        field field.target? (field.usesFor .onLink) := rfl

inductive BlockUseFate (block : Statement) (use : AnnotationUse) : Fate → Prop where
  | applied (hallows : use.kind.allows .entity = true) : BlockUseFate block use (.applied use)
  | rejected {r : Rejection} (hline : r.line = use.line?.getD block.line)
      (hkind : r.problem.kind = .entry) : BlockUseFate block use (.rejected r)

inductive BlockTagFate (block : Statement) (tag : TagUse) : Fate → Prop where
  | tagged : BlockTagFate block tag (.tagged tag)
  | rejected {r : Rejection} (hline : r.line = block.line) (hkind : r.problem.kind = .entry) :
      BlockTagFate block tag (.rejected r)

def blockUseFate (used : List AnnotationKind) (block : Statement) (use : AnnotationUse) : Fate :=
  let line := use.line?.getD block.line
  if !use.kind.allows .entity then .rejected ⟨line, .notOnEntity use.kind⟩
  else if use.kind ∈ used then .rejected ⟨line, .repeatedKind use.kind⟩
  else .applied use

def blockTagFate (attached : List String) (block : Statement) (tag : TagUse) : Fate :=
  if tag.name ∈ attached then .rejected ⟨block.line, .repeatedTag tag.name⟩ else .tagged tag

section BlockFate

variable (used : List AnnotationKind) (attached : List String) (block : Statement)

theorem blockUseFate_blockUseFate (use : AnnotationUse) :
    BlockUseFate block use (blockUseFate used block use) := by
  rw [blockUseFate]
  split
  · exact .rejected rfl rfl
  · rename_i hallows
    split
    · exact .rejected rfl rfl
    · exact .applied (by simpa using hallows)

theorem blockTagFate_blockTagFate (tag : TagUse) :
    BlockTagFate block tag (blockTagFate attached block tag) := by
  rw [blockTagFate]
  split
  · exact .rejected rfl rfl
  · exact .tagged

theorem applied_blockUseFate (uses : List AnnotationUse) :
    (uses.map (blockUseFate used block)).filterMap Fate.applied? =
      uses.filter fun use => use.kind.allows .entity && use.kind ∉ used := by
  induction uses with
  | nil => rfl
  | cons use uses ih =>
      rw [List.map_cons, List.filterMap_cons, ih, List.filter_cons, blockUseFate]
      cases use.kind.allows .entity with
      | false => rfl
      | true => by_cases hmem : use.kind ∈ used <;> simp [hmem, Fate.applied?]

theorem tagged_blockTagFate (tags : List TagUse) :
    (tags.map (blockTagFate attached block)).filterMap Fate.tagged? =
      tags.filter fun tag => tag.name ∉ attached := by
  induction tags with
  | nil => rfl
  | cons tag tags ih =>
      rw [List.map_cons, List.filterMap_cons, ih, List.filter_cons, blockTagFate]
      by_cases hmem : tag.name ∈ attached <;> simp [hmem, Fate.tagged?]

end BlockFate

theorem BlockUseFate.ofAnnotation {block : Statement} {use : AnnotationUse} {fate : Fate}
    (h : BlockUseFate block use fate) {e : Element}
    (hread : AnnotationUse.ofText e.text (some e.line) = .ok use) :
    Fate.OfAnnotation .entity e fate := by
  cases h with
  | applied hallows => exact .applied hread hallows
  | rejected hline hkind =>
      rw [(AnnotationUse.of_ofText hread).1, Option.getD_some] at hline
      exact .rejected hline hkind

theorem BlockTagFate.ofTag {block : Statement} {tag : TagUse} {fate : Fate}
    (h : BlockTagFate block tag fate) {e : Element}
    (hread : TagUse.ofText e.text (some e.line) = .ok tag) : Fate.OfTag block.line e fate := by
  cases h with
  | tagged => exact .tagged hread
  | rejected hline hkind => exact .rejected (.inr hline) hkind

namespace Assembly

structure SettlesUses (block : Statement) (s : Assembly) (uses : List AnnotationUse)
    (fates : List Fate) : Prop where
  each : uses.Forall₂ (BlockUseFate block) fates
  result : uses.foldl (addBlockUse block) s =
    { s with
      entity := s.entity.applyAll (fates.filterMap Fate.applied?)
      blockKinds := ((fates.filterMap Fate.applied?).map AnnotationUse.kind).reverse ++ s.blockKinds
      diagnostics := s.diagnostics ++ (fates.filterMap Fate.rejection?).map fun r =>
        r.diagnostic s.entity.name none }
  nodup : ((fates.filterMap Fate.applied?).map AnnotationUse.kind).Nodup
  fresh : ∀ use ∈ fates.filterMap Fate.applied?, use.kind ∉ s.blockKinds

structure SettlesTags (block : Statement) (s : Assembly) (tags : List TagUse)
    (fates : List Fate) : Prop where
  each : tags.Forall₂ (BlockTagFate block) fates
  result : tags.foldl (addBlockTag block) s =
    { s with
      entity := { s.entity with
        tags := (fates.filterMap Fate.tagged?).foldl (fun m tag => m.insert tag.name tag.value?)
          s.entity.tags }
      diagnostics := s.diagnostics ++ (fates.filterMap Fate.rejection?).map fun r =>
        r.diagnostic s.entity.name none }
  nodup : ((fates.filterMap Fate.tagged?).map TagUse.name).Nodup
  fresh : ∀ tag ∈ fates.filterMap Fate.tagged?, tag.name ∉ s.entity.tags.keys

variable {block : Statement} {s : Assembly} {used : List AnnotationKind} {attached : List String}

theorem addBlockUse_cases (block : Statement) (use : AnnotationUse)
    (hused : use.kind ∈ s.blockKinds ↔ use.kind ∈ used) :
    (blockUseFate used block use = .applied use ∧ addBlockUse block s use =
      { s with
        entity := use.kind.applyToEntity use.arguments s.entity
        blockKinds := use.kind :: s.blockKinds }) ∨
    ∃ r : Rejection, blockUseFate used block use = .rejected r ∧
      addBlockUse block s use = s.report none [r] := by
  rw [blockUseFate, addBlockUse]
  by_cases hallows : use.kind.allows .entity = true
  · by_cases hmem : use.kind ∈ used
    · exact .inr ⟨⟨use.line?.getD block.line, .repeatedKind use.kind⟩, by simp [hallows, hmem],
        by simp [hallows, hused.2 hmem]⟩
    · exact .inl ⟨by simp [hallows, hmem], by simp [hallows, mt hused.1 hmem]⟩
  · exact .inr ⟨⟨use.line?.getD block.line, .notOnEntity use.kind⟩, by simp [hallows],
      by simp [hallows]⟩

theorem addBlockTag_cases (block : Statement) (tag : TagUse)
    (hattached : tag.name ∈ s.entity.tags.keys ↔ tag.name ∈ attached) :
    (blockTagFate attached block tag = .tagged tag ∧ tag.name ∉ s.entity.tags.keys ∧
      addBlockTag block s tag =
        { s with entity := { s.entity with
            tags := s.entity.tags.insert tag.name tag.value? } }) ∨
    ∃ r : Rejection, blockTagFate attached block tag = .rejected r ∧
      addBlockTag block s tag = s.report none [r] := by
  rw [blockTagFate, addBlockTag]
  by_cases hmem : tag.name ∈ attached
  · exact .inr ⟨⟨block.line, .repeatedTag tag.name⟩, by simp [hmem],
      by simp [OrderedMap.contains_iff.2 (hattached.2 hmem)]⟩
  · have hnew : tag.name ∉ s.entity.tags.keys := mt hattached.1 hmem
    exact .inl ⟨by simp [hmem], hnew, by simp [mt OrderedMap.contains_iff.1 hnew]⟩

theorem settlesUses {uses : List AnnotationUse} (hnodup : (uses.map AnnotationUse.kind).Nodup)
    (hused : ∀ kind, kind ∈ s.blockKinds ↔ kind ∈ used) :
    s.SettlesUses block uses (uses.map (blockUseFate used block)) := by
  refine ⟨?_, ?_, ?_, ?_⟩
  · exact List.forall₂_map_right_iff.2
      (List.forall₂_same.2 fun use _ => blockUseFate_blockUseFate used block use)
  · -- On the uses, with the assembly general: none finds a kind that those before it have left.
    induction uses generalizing s used with
    | nil => simp [Entity.applyAll]
    | cons use uses ih =>
        rw [List.map_cons, List.nodup_cons] at hnodup
        rw [List.foldl_cons, List.map_cons]
        rcases addBlockUse_cases block use (hused use.kind) with
          ⟨hfate, hstep⟩ | ⟨r, hfate, hstep⟩
        · have hsame : uses.map (blockUseFate (use.kind :: used) block) =
              uses.map (blockUseFate used block) := by
            refine List.map_congr_left fun other hother => ?_
            have hne : other.kind ≠ use.kind := by
              intro hkind
              exact hnodup.1 (List.mem_map.2 ⟨other, hother, hkind⟩)
            simp [blockUseFate, hne]
          have hstill : ∀ kind, kind ∈ use.kind :: s.blockKinds ↔ kind ∈ use.kind :: used := by
            simp [hused]
          rw [hfate, hstep, ih hnodup.2 hstill, hsame]
          simp [Entity.applyAll, AnnotationKind.applyToEntity, List.filterMap_cons, Fate.applied?,
            Fate.rejection?]
        · rw [hfate, hstep, ih hnodup.2 (s := s.report none [r]) hused]
          simp [report, List.filterMap_cons, Fate.applied?, Fate.rejection?]
  · rw [applied_blockUseFate]
    exact hnodup.sublist (List.filter_sublist.map AnnotationUse.kind)
  · intro use huse
    rw [applied_blockUseFate] at huse
    have hnew := (List.mem_filter.1 huse).2
    rw [Bool.and_eq_true, decide_eq_true_iff] at hnew
    exact mt (hused use.kind).1 hnew.2

theorem settlesTags {tags : List TagUse} (hnodup : (tags.map TagUse.name).Nodup)
    (hattached : ∀ name, name ∈ s.entity.tags.keys ↔ name ∈ attached) :
    s.SettlesTags block tags (tags.map (blockTagFate attached block)) := by
  refine ⟨?_, ?_, ?_, ?_⟩
  · exact List.forall₂_map_right_iff.2
      (List.forall₂_same.2 fun tag _ => blockTagFate_blockTagFate attached block tag)
  · induction tags generalizing s attached with
    | nil => simp
    | cons tag tags ih =>
        rw [List.map_cons, List.nodup_cons] at hnodup
        rw [List.foldl_cons, List.map_cons]
        rcases addBlockTag_cases block tag (hattached tag.name) with
          ⟨hfate, hnew, hstep⟩ | ⟨r, hfate, hstep⟩
        · have hkeys : ∀ name, name ∈ (s.entity.tags.insert tag.name tag.value?).keys ↔
              name ∈ tag.name :: attached := by
            intro name
            rw [OrderedMap.keys_insert, if_neg hnew]
            simp [hattached, or_comm]
          have hsame : tags.map (blockTagFate (tag.name :: attached) block) =
              tags.map (blockTagFate attached block) := by
            refine List.map_congr_left fun other hother => ?_
            have hne : other.name ≠ tag.name := by
              intro hname
              exact hnodup.1 (List.mem_map.2 ⟨other, hother, hname⟩)
            simp [blockTagFate, hne]
          rw [hfate, hstep, ih hnodup.2 hkeys, hsame]
          simp [List.filterMap_cons, Fate.tagged?, Fate.rejection?]
        · rw [hfate, hstep, ih hnodup.2 (s := s.report none [r]) hattached]
          simp [report, List.filterMap_cons, Fate.tagged?, Fate.rejection?]
  · rw [tagged_blockTagFate]
    exact hnodup.sublist (List.filter_sublist.map TagUse.name)
  · intro tag htag
    rw [tagged_blockTagFate] at htag
    exact mt (hattached tag.name).1 (by simpa using (List.mem_filter.1 htag).2)

structure SettlesBlock (s : Assembly) (block : Statement) (annotations tags : List Fate) :
    Prop where
  each_annotation : block.annotations.Forall₂ (Fate.OfAnnotation .entity) annotations
  each_tag : block.tags.Forall₂ (Fate.OfTag block.line) tags
  entity : (s.addBlock block).entity =
    { s.entity.applyAll (annotations.filterMap Fate.applied?) with
      tags := (tags.filterMap Fate.tagged?).foldl (fun m tag => m.insert tag.name tag.value?)
        s.entity.tags }
  blockKinds : (s.addBlock block).blockKinds =
    ((annotations.filterMap Fate.applied?).map AnnotationUse.kind).reverse ++ s.blockKinds
  diagnostics : (s.addBlock block).diagnostics.Perm (s.diagnostics ++
    ((annotations ++ tags).filterMap Fate.rejection?).map fun r => r.diagnostic s.entity.name none)
  nodup_kinds : ((annotations.filterMap Fate.applied?).map AnnotationUse.kind).Nodup
  fresh_kinds : ∀ use ∈ annotations.filterMap Fate.applied?, use.kind ∉ s.blockKinds
  nodup_names : ((tags.filterMap Fate.tagged?).map TagUse.name).Nodup
  fresh_names : ∀ tag ∈ tags.filterMap Fate.tagged?, tag.name ∉ s.entity.tags.keys

end Assembly

namespace Statement

def blockFates (block : Statement) (used : List AnnotationKind) : List Fate :=
  (annotationOutcomes [] block.annotations).map (outcomeFate (blockUseFate used block))

def blockTagFates (block : Statement) (attached : List String) : List Fate :=
  (tagOutcomes [] block.tags).map (outcomeFate (blockTagFate attached block))

end Statement

theorem Assembly.settlesBlock {s : Assembly} (block : Statement) {used : List AnnotationKind}
    {attached : List String} (hused : ∀ kind, kind ∈ s.blockKinds ↔ kind ∈ used)
    (hattached : ∀ name, name ∈ s.entity.tags.keys ↔ name ∈ attached) :
    s.SettlesBlock block (block.blockFates used) (block.blockTagFates attached) := by
  have hresult : s.addBlock block = (accepted (tagOutcomes [] block.tags)).foldl (addBlockTag block)
      (((accepted (annotationOutcomes [] block.annotations)).foldl (addBlockUse block)
        (s.report none (rejected (annotationOutcomes [] block.annotations)))).report none
          (rejected (tagOutcomes [] block.tags))) := rfl
  have huses : (s.report none (rejected (annotationOutcomes [] block.annotations))).SettlesUses
      block (accepted (annotationOutcomes [] block.annotations))
      ((accepted (annotationOutcomes [] block.annotations)).map (blockUseFate used block)) :=
    settlesUses (nodup_accepted_annotationOutcomes block.annotations) hused
  have happlied : (block.blockFates used).filterMap Fate.applied? =
      ((accepted (annotationOutcomes [] block.annotations)).map
        (blockUseFate used block)).filterMap Fate.applied? := filterMap_outcomeFate (fun _ => rfl) _
  rw [huses.result] at hresult
  have htags (s' : Assembly) (hs' : s'.entity.tags = s.entity.tags) :
      s'.SettlesTags block (accepted (tagOutcomes [] block.tags))
        ((accepted (tagOutcomes [] block.tags)).map (blockTagFate attached block)) :=
    settlesTags (nodup_accepted_tagOutcomes block.tags) (by rwa [hs'])
  have htagged : (block.blockTagFates attached).filterMap Fate.tagged? =
      ((accepted (tagOutcomes [] block.tags)).map
        (blockTagFate attached block)).filterMap Fate.tagged? := filterMap_outcomeFate (fun _ => rfl) _
  rw [(htags _ (by simp [report, Entity.applyAll_frame])).result] at hresult
  refine ⟨?_, ?_, ?_, ?_, ?_, ?_, ?_, ?_, ?_⟩
  · refine forall₂_outcomeFate (isOutcome_annotationOutcomes block.annotations) ?_ ?_
    · rintro e use ⟨hread⟩
      exact BlockUseFate.ofAnnotation (blockUseFate_blockUseFate used block use) hread
    · rintro e r (_ | ⟨hline, hkind⟩)
      exact .rejected hline hkind
  · refine forall₂_outcomeFate (isOutcome_tagOutcomes block.tags) ?_ ?_
    · rintro e tag ⟨hread⟩
      exact BlockTagFate.ofTag (blockTagFate_blockTagFate attached block tag) hread
    · rintro e r (_ | ⟨hline, hkind⟩)
      exact .rejected (.inl hline) hkind
  · rw [hresult, happlied, htagged]
    simp [report, Entity.applyAll_frame]
  · rw [hresult, happlied]
    rfl
  · have hperm := (rejection_outcomeFate (blockUseFate used block)
      (annotationOutcomes [] block.annotations)).append
        (rejection_outcomeFate (blockTagFate attached block) (tagOutcomes [] block.tags))
    have hdiagnostics : (s.addBlock block).diagnostics = s.diagnostics ++
        (rejected (annotationOutcomes [] block.annotations) ++
            ((accepted (annotationOutcomes [] block.annotations)).map
              (blockUseFate used block)).filterMap Fate.rejection? ++
          (rejected (tagOutcomes [] block.tags) ++ ((accepted (tagOutcomes [] block.tags)).map
            (blockTagFate attached block)).filterMap Fate.rejection?)).map fun r =>
              r.diagnostic s.entity.name none := by
      rw [hresult]
      simp [report, Entity.applyAll_frame]
    rw [hdiagnostics, List.filterMap_append]
    exact (hperm.symm.map _).append_left _
  · rw [happlied]
    exact huses.nodup
  · rw [happlied]
    exact huses.fresh
  · rw [htagged]
    exact (htags s rfl).nodup
  · rw [htagged]
    exact (htags s rfl).fresh

end EntityModel
