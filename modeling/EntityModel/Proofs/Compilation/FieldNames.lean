import EntityModel.Proofs.Compilation.Entities
import EntityModel.Proofs.Model.Completion
import EntityModel.Proofs.Model.Linking

/-!
# Distinct fields of a compiled model

No two fields of an entity share a name, whether the model is valid or not, and however often
links are resolved on it.
-/

namespace EntityModel

namespace Model

variable [Naming] {m : Model}

def HasDistinctFields (m : Model) : Prop := ∀ e ∈ m.toList, e.fieldNames.Nodup

theorem HasDistinctFields.resolveLinks (h : m.HasDistinctFields) (directions : LinkDirections)
    (suffix : String) : (m.resolveLinks directions suffix).1.HasDistinctFields := by
  intro e he
  obtain ⟨name, hname⟩ := mem_toList_iff.1 he
  rw [entity?_resolveLinks, Option.map_eq_some_iff] at hname
  obtain ⟨e₀, he₀, rfl⟩ := hname
  exact Entity.nodup_fieldNames_addAllNamed (h e₀ (mem_toList_iff.2 ⟨name, he₀⟩)) _

def resolveAll (m : Model) (passes : List (LinkDirections × String)) : Model :=
  passes.foldl (fun m pass => (m.resolveLinks pass.1 pass.2).1) m

theorem HasDistinctFields.resolveAll (h : m.HasDistinctFields)
    (passes : List (LinkDirections × String)) : (m.resolveAll passes).HasDistinctFields := by
  induction passes generalizing m with
  | nil => exact h
  | cons pass passes ih => exact ih (h.resolveLinks pass.1 pass.2)

end Model

variable [Naming]

theorem Compilation.hasDistinctFields_ofCollection {c : Collection}
    (hc : c.model.Comprises Entity.IsBuilt) (directions : LinkDirections) (suffix : String) :
    (Compilation.ofCollection directions suffix c).model.HasDistinctFields := by
  have hcompleted := hc.complete fun e he => c.model.isBuilt_completeEntity he
  have hdistinct : c.model.complete.1.HasDistinctFields := by
    intro e he
    exact (hcompleted.entities e he).nodup_fieldNames
  exact hdistinct.resolveLinks directions suffix

/-- The fields of each entity have distinct names in every compiled model, with or without
diagnostics, and after every further resolution of links. -/
theorem hasDistinctFields_compile (config : Config) (passes : List (LinkDirections × String)) :
    (∀ sources, ((compileSources config sources).model.resolveAll passes).HasDistinctFields) ∧
      ∀ schema, ((compileSchema config schema).model.resolveAll passes).HasDistinctFields := by
  constructor
  · intro sources
    have hstated := Collection.comprises_sources config sources
    have hbuilt := hstated.mono fun e he => he.toIsBuilt
    apply Model.HasDistinctFields.resolveAll
    exact Compilation.hasDistinctFields_ofCollection hbuilt .all config.listSuffix
  · intro schema
    have hbuilt := Collection.comprises_tables schema.tables
    apply Model.HasDistinctFields.resolveAll
    exact Compilation.hasDistinctFields_ofCollection hbuilt config.links config.listSuffix

end EntityModel
