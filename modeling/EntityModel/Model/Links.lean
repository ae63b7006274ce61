import EntityModel.Annotations.Effect
import EntityModel.Diagnostic
import EntityModel.Model
import EntityModel.Naming

/-!
# Links of a model

Every foreign key gives rise to a link along it and a link back, and a join entity to a link in
either direction between the two entities that it joins. All links are planned from the model as
it is and then added one after the other, each under the first free name of its owner.
-/

namespace EntityModel

structure LinkDirections where
  manyToOne : Bool
  oneToMany : Bool
  manyToMany : Bool
deriving Repr, DecidableEq

namespace LinkDirections

def all : LinkDirections := ⟨true, true, true⟩

end LinkDirections

def defaultListSuffix : String := "List"

/-- The wanted name if no field has it, else the wanted name with the least number from two on
that makes it free. -/
def Entity.freeFieldName (e : Entity) (wanted : String) : String :=
  if !e.hasField wanted then wanted
  else
    let numbered := (List.range' 2 (e.attributes.length + e.links.length)).map fun n =>
      wanted ++ toString n
    (numbered.find? fun name => !e.hasField name).getD wanted

structure LinkPlan where
  owner : String
  link : Link
deriving DecidableEq

namespace LinkPlan

def along [Naming] (origin : String) (fk : ForeignKey) : LinkPlan :=
  let bare : Link :=
    { Link.ofCardinality (Naming.fieldName fk.referenced) fk.referenced .manyToOne with
      isOwning := true
      basedOnForeignKey := true
      foreignKey? := some fk.name }
  ⟨origin, fk.linkAnnotations.foldl (fun l use => use.kind.applyToLink use.arguments l) bare⟩

def back [Naming] (suffix origin : String) (fk : ForeignKey) : LinkPlan :=
  ⟨fk.referenced,
    { Link.ofCardinality (Naming.fieldName origin ++ suffix) origin .oneToMany with
      isInverse := true
      foreignKey? := some fk.name }⟩

def through [Naming] (suffix join owner target : String) : LinkPlan :=
  ⟨owner,
    { Link.ofCardinality (Naming.fieldName target ++ suffix) target .manyToMany with
      joinEntity? := some join }⟩

end LinkPlan

namespace Model

/-- The links that an entity gives rise to. A join entity of which one foreign key leads outside
the model counts as any other entity. -/
def linkPlans [Naming] (m : Model) (directions : LinkDirections) (suffix : String) (e : Entity) :
    List LinkPlan :=
  let keys := e.foreignKeys.filter fun fk => m.contains fk.referenced
  match directions.manyToMany && e.isJoin, keys with
  | true, [first, second] =>
      [.through suffix e.name first.referenced second.referenced,
        .through suffix e.name second.referenced first.referenced]
  | _, _ =>
      keys.flatMap fun fk =>
        (if directions.manyToOne then [LinkPlan.along e.name fk] else []) ++
          (if directions.oneToMany then [LinkPlan.back suffix e.name fk] else [])

def danglingKeys (m : Model) (e : Entity) : Diagnostics :=
  (e.foreignKeys.filter fun fk => !m.contains fk.referenced).map fun fk =>
    ⟨e.name, fk.firstField?, none, .unknownEntity fk.name fk.referenced⟩

def addLink (m : Model) (plan : LinkPlan) : Model :=
  ⟨m.entities.modify plan.owner fun e =>
    e.addLink { plan.link with field := e.freeFieldName plan.link.field }⟩

/-- Adds the links of all foreign keys, and reports the keys that lead outside the model. -/
def resolveLinks [Naming] (m : Model) (directions : LinkDirections) (suffix : String) :
    Model × Diagnostics :=
  ((m.toList.flatMap (m.linkPlans directions suffix)).foldl addLink m,
    m.toList.flatMap m.danglingKeys)

end Model

end EntityModel
