import EntityModel.Proofs.Compilation.FieldNames
import EntityModel.Proofs.Entity.BoundFields

/-!
# Bound attributes through the stages

Completion fills in what columns refer to, and the resolution of links adds links. Neither touches
the attributes of an entity or the columns of its keys, so that marks and columns still agree.
-/

namespace EntityModel

namespace Model

variable {m : Model} {e : Entity}

theorem boundFields_completeEntity (m : Model) (e : Entity) :
    (m.completeEntity e).boundFields = e.boundFields := by
  rw [Entity.boundFields, completeEntity, List.flatMap_map, Entity.boundFields]
  exact List.flatMap_congr fun fk _ => (fk.sameColumns_completeIn m).origins

theorem entity?_resolveAll [Naming] {name : String} (h : m.entity? name = some e)
    (passes : List (LinkDirections × String)) :
    ∃ links, (m.resolveAll passes).entity? name = some { e with links := links } := by
  induction passes generalizing m e with
  | nil => exact ⟨e.links, h⟩
  | cons pass passes ih =>
      have hpass : (m.resolveLinks pass.1 pass.2).1.entity? name =
          some (e.addAllNamed (m.linksDue pass.1 pass.2 name)) := by
        rw [entity?_resolveLinks, h, Option.map_some]
      obtain ⟨links, hlinks⟩ := ih hpass
      refine ⟨links, hlinks.trans ?_⟩
      rw [Entity.addAllNamed_eq]

end Model

namespace Entity

/-- The property holds of an entity, and of what becomes of it in every model that it is collected
into: when the keys of the model are completed, and when links are then resolved any number of
times. -/
def AtEveryStage [Naming] (P : Entity → Prop) (e : Entity) : Prop :=
  P e ∧ ∀ c : Collection, c.model.entity? e.name = some e →
    ∀ passes, ∃ linked, (c.build.1.resolveAll passes).entity? e.name = some linked ∧ P linked

theorem KeysAgree.completeEntity {e : Entity} (h : e.KeysAgree) (m : Model) :
    (m.completeEntity e).KeysAgree := by
  refine ⟨?_, ?_, ?_, ?_⟩
  · rw [m.boundFields_completeEntity]
    exact h.marked_iff
  · rw [m.boundFields_completeEntity]
    exact h.bound
  · intro fk hfk
    obtain ⟨fk₀, hfk₀, rfl⟩ := List.mem_map.1 hfk
    exact (fk₀.sameColumns_completeIn m).bindings_ne_nil (h.bindings_ne_nil fk₀ hfk₀)
  · intro fk hfk
    obtain ⟨fk₀, hfk₀, rfl⟩ := List.mem_map.1 hfk
    rw [fk₀.origin_completeIn m]
    exact h.origin_eq fk₀ hfk₀

theorem KeysAgree.withLinks {e : Entity} (h : e.KeysAgree) (links : List Link) :
    ({ e with links := links } : Entity).KeysAgree :=
  ⟨h.marked_iff, h.bound, h.bindings_ne_nil, h.origin_eq⟩

theorem atEveryStage_of_completed [Naming] {P : Entity → Prop} {e : Entity} (he : P e)
    (hP : ∀ (m : Model) (links : List Link), P { m.completeEntity e with links := links }) :
    e.AtEveryStage P := by
  refine ⟨he, fun c hc passes => ?_⟩
  have hbuilt : c.build.1.entity? e.name = some (c.model.completeEntity e) := by
    have hcomplete := c.model.entity?_complete e.name
    rwa [hc, Option.map_some] at hcomplete
  obtain ⟨links, hlinked⟩ := Model.entity?_resolveAll hbuilt passes
  exact ⟨_, hlinked, hP c.model links⟩

/-- The marks of attributes and the columns of foreign keys agree in every entity of statements and
in every entity of a table, and still do when keys are completed and links resolved. In an entity
of statements, no attribute carries two columns. -/
theorem keysAgree_atEveryStage [Naming] :
    (∀ name statements, (ofStatements name statements).1.AtEveryStage fun e =>
        e.KeysAgree ∧ e.boundFields.Nodup) ∧
      ∀ t : Table, (ofTable t).1.AtEveryStage KeysAgree := by
  constructor
  · intro name statements
    obtain ⟨hagree, hnodup⟩ := keysAgree_ofStatements name statements
    refine atEveryStage_of_completed ⟨hagree, hnodup⟩ fun m links => ?_
    refine ⟨(hagree.completeEntity m).withLinks links, ?_⟩
    have hcompleted : (m.completeEntity (ofStatements name statements).1).boundFields.Nodup := by
      rw [m.boundFields_completeEntity]
      exact hnodup
    exact hcompleted
  · intro t
    have hagree := keysAgree_ofTable t
    exact atEveryStage_of_completed hagree fun m links => (hagree.completeEntity m).withLinks links

end Entity

end EntityModel
