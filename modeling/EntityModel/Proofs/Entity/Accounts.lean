import EntityModel.Entity.Assembly
import EntityModel.Proofs.Annotations.Application
import Mathlib.Data.List.Forall2

/-!
# Accounts of statements

What becomes of a statement and of each of its elements, as an account of its own. An entity and
its diagnostics can be drawn up from the accounts of its statements alone: whatever is not rejected
leaves its mark on the entity, and whatever is rejected is reported.
-/

namespace EntityModel

inductive Fate where
  | applied (use : AnnotationUse)
  -- stays with the foreign key that the field declares
  | kept (use : AnnotationUse)
  | tagged (tag : TagUse)
  | rejected (r : Rejection)
deriving Repr, DecidableEq

namespace Fate

def applied? : Fate → Option AnnotationUse
  | applied use => some use
  | _ => none

def kept? : Fate → Option AnnotationUse
  | kept use => some use
  | _ => none

def tagged? : Fate → Option TagUse
  | tagged tag => some tag
  | _ => none

def rejection? : Fate → Option Rejection
  | rejected r => some r
  | _ => none

inductive OfAnnotation (target : Scope) (e : Element) : Fate → Prop where
  | applied {use : AnnotationUse} (hread : AnnotationUse.ofText e.text (some e.line) = .ok use)
      (hallows : use.kind.allows target = true) : OfAnnotation target e (.applied use)
  | kept {use : AnnotationUse} (hread : AnnotationUse.ofText e.text (some e.line) = .ok use)
      (htarget : target = .attribute) (hallows : use.kind.allows .link = true) :
      OfAnnotation target e (.kept use)
  | rejected {r : Rejection} (hline : r.line = e.line) (hkind : r.problem.kind = .entry) :
      OfAnnotation target e (.rejected r)

/-- The fates that a tag of a statement on the given line can have. A tag that an earlier block has
brought is reported with the line of its block. -/
inductive OfTag (line : Nat) (e : Element) : Fate → Prop where
  | tagged {tag : TagUse} (hread : TagUse.ofText e.text (some e.line) = .ok tag) :
      OfTag line e (.tagged tag)
  | rejected {r : Rejection} (hline : r.line = e.line ∨ r.line = line)
      (hkind : r.problem.kind = .entry) : OfTag line e (.rejected r)

end Fate

inductive Verdict where
  | skipped (problem : Problem)
  | declared (type : NeutralType) (annotations tags : List Fate)
  -- the elements are meant for the entity
  | spread (annotations tags : List Fate)
deriving Repr, DecidableEq

structure Account where
  statement : Statement
  verdict : Verdict
deriving Repr, DecidableEq

/-- What a statement declares, if it is not for the entity and its type is known. -/
def Statement.declaration? (s : Statement) : Option (Statement × NeutralType) :=
  if s.isEntityBlock then none else (NeutralType.ofName? s.typeName).map fun type => (s, type)

def Statement.plainAttribute (s : Statement) (type : NeutralType) : Attribute :=
  { name := s.name
    type := type
    isKey := false
    isForeignKey := false
    params := .empty
    tags := .empty
    default? := none
    column? := none
    line? := some s.line }

namespace Account

def fates (a : Account) : List Fate :=
  match a.verdict with
  | .skipped _ => []
  | .declared _ annotations tags | .spread annotations tags => annotations ++ tags

def rejections (a : Account) : List Rejection := a.fates.filterMap Fate.rejection?

def isSkipped (a : Account) : Bool :=
  match a.verdict with
  | .skipped _ => true
  | _ => false

def declaration? (a : Account) : Option (Statement × NeutralType) :=
  match a.verdict with
  | .declared type _ _ => some (a.statement, type)
  | _ => none

/-- The name and target of the foreign key that a field of the entity declares, and its column. -/
def key? (entity : String) (a : Account) : Option ((String × String) × Binding) :=
  match a.verdict with
  | .declared _ annotations _ =>
      (((annotations.filterMap Fate.applied?).find? fun use => use.kind == .foreignKey).bind
        AnnotationUse.foreignKeyTarget?).map fun target =>
          ((target.keyName?.getD (defaultKeyName entity a.statement.name), target.entity),
            ⟨a.statement.name, target.attribute?⟩)
  | _ => none

/-- The attribute that a statement declares: every applied annotation is applied to it in turn, it
has every attached tag, and it is marked if it is a column of a foreign key. -/
def attribute? (entity : String) (a : Account) : Option Attribute :=
  match a.verdict with
  | .declared type annotations tags =>
      some { (a.statement.plainAttribute type).applyAll (annotations.filterMap Fate.applied?) with
        tags := .ofUses (tags.filterMap Fate.tagged?)
        isForeignKey := (a.key? entity).isSome }
  | _ => none

theorem attribute?_declared (entity : String) (st : Statement) (type : NeutralType)
    (annotations tags : List Fate) :
    attribute? entity ⟨st, .declared type annotations tags⟩ =
      some { Assembly.fieldAttribute st type (annotations.filterMap Fate.applied?)
          (tags.filterMap Fate.tagged?) with
        isForeignKey := (key? entity ⟨st, .declared type annotations tags⟩).isSome } :=
  rfl

def keyEnds? (entity : String) (a : Account) : Option (String × String) :=
  (a.key? entity).map Prod.fst

def bindingOn (entity : String) (ends : String × String) (a : Account) : Option Binding :=
  (a.key? entity).bind fun key => if key.1 = ends then some key.2 else none

def keptOn (entity : String) (ends : String × String) (a : Account) : List AnnotationUse :=
  if a.keyEnds? entity = some ends then a.fates.filterMap Fate.kept? else []

def entityUses (a : Account) : List AnnotationUse :=
  match a.verdict with
  | .spread annotations _ => annotations.filterMap Fate.applied?
  | _ => []

def entityTags (a : Account) : List TagUse :=
  match a.verdict with
  | .spread _ tags => tags.filterMap Fate.tagged?
  | _ => []

def diagnostics (entity : String) (a : Account) : Diagnostics :=
  match a.verdict with
  | .skipped problem => [⟨entity, some a.statement.name, some a.statement.line, problem⟩]
  | .declared _ _ _ => a.rejections.map fun r => r.diagnostic entity (some a.statement.name)
  | .spread _ _ => a.rejections.map fun r => r.diagnostic entity none

/-- The account says of its statement what can be said of it: why it is skipped, or one fate for
each of its elements, no kind and no name twice. -/
inductive IsSound (entity : String) : Account → Prop where
  | ofUnknownType {s : Statement} (hs : s.isEntityBlock = false)
      (htype : NeutralType.ofName? s.typeName = none) :
      IsSound entity ⟨s, .skipped (.unknownType s.typeName)⟩
  | ofTakenName {s : Statement} (hs : s.isEntityBlock = false) {type : NeutralType}
      (htype : NeutralType.ofName? s.typeName = some type) :
      IsSound entity ⟨s, .skipped (.duplicateField s.name)⟩
  | ofField {s : Statement} (hs : s.isEntityBlock = false) {type : NeutralType}
      (htype : NeutralType.ofName? s.typeName = some type) {annotations tags : List Fate}
      (hannotations : s.annotations.Forall₂ (Fate.OfAnnotation .attribute) annotations)
      (htags : s.tags.Forall₂ (Fate.OfTag s.line) tags)
      (hkinds : ((annotations.filterMap Fate.applied?).map AnnotationUse.kind).Nodup)
      (hnames : ((tags.filterMap Fate.tagged?).map TagUse.name).Nodup)
      (hkept : annotations.filterMap Fate.kept? ≠ [] →
        (key? entity ⟨s, .declared type annotations tags⟩).isSome) :
      IsSound entity ⟨s, .declared type annotations tags⟩
  | ofBlock {s : Statement} (hs : s.isEntityBlock = true) {annotations tags : List Fate}
      (hannotations : s.annotations.Forall₂ (Fate.OfAnnotation .entity) annotations)
      (htags : s.tags.Forall₂ (Fate.OfTag s.line) tags) :
      IsSound entity ⟨s, .spread annotations tags⟩

end Account

namespace Entity

def keyEndsOf (name : String) (accounts : List Account) : List (String × String) :=
  (accounts.filterMap (Account.keyEnds? name)).eraseDups

/-- The foreign key with this name and target: its columns, and what is kept for its link. -/
def keyOf (name : String) (accounts : List Account) (ends : String × String) : ForeignKey :=
  ⟨ends.1, name, ends.2, accounts.filterMap (Account.bindingOn name ends),
    accounts.flatMap (Account.keptOn name ends)⟩

def keysOf (name : String) (accounts : List Account) : List ForeignKey :=
  (keyEndsOf name accounts).map (keyOf name accounts)

/-- The entity that the accounts of its statements amount to. -/
def ofAccounts (name : String) (accounts : List Account) : Entity :=
  { (ofName name).applyAll (accounts.flatMap Account.entityUses) with
    attributes := accounts.filterMap (Account.attribute? name)
    foreignKeys := keysOf name accounts
    tags := .ofUses (accounts.flatMap Account.entityTags) }

end Entity

end EntityModel
