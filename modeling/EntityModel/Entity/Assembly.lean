import EntityModel.Annotations.Effect
import EntityModel.Annotations.Reading
import EntityModel.Definition
import EntityModel.Diagnostic

/-!
# Assembly of an entity

The statements of a definition become the attributes and foreign keys of an entity. A statement
that cannot be used is reported once and leaves the entity as it is. Of each element of a
statement that is used, something becomes of it or it is reported.
-/

namespace EntityModel

structure Rejection where
  line : Nat
  problem : Problem
deriving Repr, DecidableEq

def Rejection.diagnostic (r : Rejection) (entity : String) (field? : Option String) : Diagnostic :=
  ⟨entity, field?, some r.line, r.problem⟩

def accepted {ε α : Type} (outcomes : List (Except ε α)) : List α :=
  outcomes.filterMap Except.toOption

def rejected {ε α : Type} (outcomes : List (Except ε α)) : List ε :=
  outcomes.filterMap fun
    | .error e => some e
    | .ok _ => none

/-- The outcome of each annotation of a statement. The first of each kind is accepted, besides
the kinds seen before. -/
def annotationOutcomes (seen : List AnnotationKind) :
    List Element → List (Except Rejection AnnotationUse)
  | [] => []
  | element :: rest =>
      match AnnotationUse.ofText element.text (some element.line) with
      | .error fault => .error ⟨element.line, .rejected fault⟩ :: annotationOutcomes seen rest
      | .ok use =>
          if use.kind ∈ seen then
            .error ⟨element.line, .repeatedKind use.kind⟩ :: annotationOutcomes seen rest
          else .ok use :: annotationOutcomes (use.kind :: seen) rest

def tagOutcomes (seen : List String) : List Element → List (Except Rejection TagUse)
  | [] => []
  | element :: rest =>
      match TagUse.ofText element.text (some element.line) with
      | .error fault => .error ⟨element.line, .rejected fault⟩ :: tagOutcomes seen rest
      | .ok tag =>
          if tag.name ∈ seen then
            .error ⟨element.line, .repeatedTag tag.name⟩ :: tagOutcomes seen rest
          else .ok tag :: tagOutcomes (tag.name :: seen) rest

def Tags.ofUses (uses : List TagUse) : Tags :=
  .ofList (uses.map fun tag => (tag.name, tag.value?))

inductive FieldRole where
  | onLink
  | onAttribute
  | refused (problem : Problem)
deriving Repr, DecidableEq

/-- On a field with a foreign key, what may stand on a link goes to the link. -/
def AnnotationKind.fieldRole (kind : AnnotationKind) (isRelationship : Bool) : FieldRole :=
  if isRelationship && kind.allows .link then .onLink
  else if kind.allows .attribute then .onAttribute
  else if kind.allows .link then .refused (.relationshipOnly kind)
  else .refused (.notOnField kind)

def defaultKeyName (entity field : String) : String := "FK_" ++ entity ++ "_" ++ field

/-- The state of the assembly: the entity so far, and the kinds that its blocks have used. -/
structure Assembly where
  entity : Entity
  blockKinds : List AnnotationKind
  diagnostics : Diagnostics
deriving DecidableEq

namespace Assembly

def ofName (name : String) : Assembly := ⟨.ofName name, [], []⟩

def report (s : Assembly) (field? : Option String) (rs : List Rejection) : Assembly :=
  { s with diagnostics := s.diagnostics ++ rs.map fun r => r.diagnostic s.entity.name field? }

def declareKey (s : Assembly) (field : Statement) (target? : Option ForeignKeyTarget)
    (linkUses : List AnnotationUse) : Assembly :=
  match target? with
  | none => s
  | some target =>
      let keyName := target.keyName?.getD (defaultKeyName s.entity.name field.name)
      let (entity, duplicates) :=
        s.entity.declareForeignKey keyName target.entity ⟨field.name, target.attribute?⟩ linkUses
      let rejections := duplicates.map fun use =>
        ⟨use.line?.getD field.line, .repeatedOnKey use.kind keyName⟩
      { s with entity := entity }.report (some field.name) rejections

def fieldRejection? (field : Statement) (isRelationship : Bool) (use : AnnotationUse) :
    Option Rejection :=
  match use.kind.fieldRole isRelationship with
  | .refused problem => some ⟨use.line?.getD field.line, problem⟩
  | _ => none

def fieldAttribute (field : Statement) (type : NeutralType) (uses : List AnnotationUse)
    (tags : List TagUse) : Attribute :=
  let base := { Attribute.ofType field.name type with line? := some field.line }
  let applied := uses.foldl (fun a use => use.kind.applyToAttribute use.arguments a) base
  { applied with tags := .ofUses tags }

/-- Adds the attribute of a statement whose type is known and whose name is free. -/
def addAttribute (s : Assembly) (field : Statement) (type : NeutralType) : Assembly :=
  let outcomes := annotationOutcomes [] field.annotations
  let tags := tagOutcomes [] field.tags
  let uses := accepted outcomes
  let isRelationship := uses.any fun use => use.kind == .foreignKey
  let own := uses.filter fun use => use.kind.fieldRole isRelationship == .onAttribute
  let onLink := uses.filter fun use => use.kind.fieldRole isRelationship == .onLink
  let refused := uses.filterMap (fieldRejection? field isRelationship)
  let target? := (own.find? fun use => use.kind == .foreignKey).bind
    AnnotationUse.foreignKeyTarget?
  let s := s.report (some field.name) (rejected outcomes ++ refused ++ rejected tags)
  let s := { s with entity := s.entity.addAttribute (fieldAttribute field type own (accepted tags)) }
  s.declareKey field target? onLink

def addField (s : Assembly) (field : Statement) : Assembly :=
  match NeutralType.ofName? field.typeName with
  | none => s.report (some field.name) [⟨field.line, .unknownType field.typeName⟩]
  | some type =>
      if s.entity.hasField field.name then
        s.report (some field.name) [⟨field.line, .duplicateField field.name⟩]
      else s.addAttribute field type

/-- Applies an annotation of a block, unless it may not stand on an entity or stood there. -/
def addBlockUse (block : Statement) (s : Assembly) (use : AnnotationUse) : Assembly :=
  let line := use.line?.getD block.line
  if !use.kind.allows .entity then s.report none [⟨line, .notOnEntity use.kind⟩]
  else if use.kind ∈ s.blockKinds then s.report none [⟨line, .repeatedKind use.kind⟩]
  else
    { s with
      entity := use.kind.applyToEntity use.arguments s.entity
      blockKinds := use.kind :: s.blockKinds }

def addBlockTag (block : Statement) (s : Assembly) (tag : TagUse) : Assembly :=
  if s.entity.tags.contains tag.name then s.report none [⟨block.line, .repeatedTag tag.name⟩]
  else { s with entity := { s.entity with tags := s.entity.tags.insert tag.name tag.value? } }

def addBlock (s : Assembly) (block : Statement) : Assembly :=
  let outcomes := annotationOutcomes [] block.annotations
  let tags := tagOutcomes [] block.tags
  let s := (accepted outcomes).foldl (addBlockUse block) (s.report none (rejected outcomes))
  (accepted tags).foldl (addBlockTag block) (s.report none (rejected tags))

def addStatement (s : Assembly) (statement : Statement) : Assembly :=
  if statement.isEntityBlock then s.addBlock statement else s.addField statement

end Assembly

def Entity.ofStatements (name : String) (statements : List Statement) : Entity × Diagnostics :=
  let s := statements.foldl Assembly.addStatement (Assembly.ofName name)
  (s.entity, s.diagnostics)

end EntityModel
