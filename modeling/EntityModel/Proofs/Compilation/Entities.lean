import EntityModel.Compilation
import EntityModel.Proofs.Entity.Assembly
import EntityModel.Proofs.Entity.OfTable
import EntityModel.Proofs.Success

/-!
# Collected entities

Every entity of a collection stands under its name, and comes from the statements of a source or
from a table.
-/

namespace EntityModel

namespace Collection

variable {P : Entity → Prop} {c : Collection}

theorem comprises_addReported (hc : c.model.Comprises P) {result : Entity × Diagnostics}
    (hP : P result.1) : (c.addReported result).model.Comprises P := by
  have hreport : (c.report result.2).model = c.model := rfl
  rw [addReported, add, hreport]
  split
  · rename_i model hadd
    exact hc.add? hP hadd
  · exact hc

theorem comprises_foldl {α : Type} {step : Collection → α → Collection}
    (hstep : ∀ c x, c.model.Comprises P → (step c x).model.Comprises P)
    (hc : c.model.Comprises P) (xs : List α) : (xs.foldl step c).model.Comprises P := by
  induction xs generalizing c with
  | nil => exact hc
  | cons x xs ih => exact ih (hstep c x hc)

end Collection

theorem Source.exists_definition_of_readEntity {s : Source} {config : Config}
    {result : Entity × Diagnostics} (h : s.readEntity config = .ok result) :
    ∃ definition name, Definition.ofText s.label s.text = .ok definition ∧
      result.1 = (Entity.ofStatements name definition.statements).1 ∧
      result.2 = (Entity.ofStatements name definition.statements).2 ++
        if config.requireNameMatch then s.nameMismatch definition.declaredName? else [] := by
  rw [readEntity] at h
  obtain ⟨definition, hdefinition, h⟩ := bind_eq_ok_iff.1 h
  obtain ⟨name, -, h⟩ := bind_eq_ok_iff.1 h
  obtain rfl := Except.ok.inj h
  exact ⟨definition, name, hdefinition, rfl, rfl⟩

theorem Source.isStated_of_readEntity {s : Source} {config : Config}
    {result : Entity × Diagnostics} (h : s.readEntity config = .ok result) :
    result.1.IsStated := by
  obtain ⟨definition, name, -, hentity, -⟩ := s.exists_definition_of_readEntity h
  rw [hentity]
  exact (Entity.isStated_ofStatements name definition.statements).1

namespace Collection

theorem comprises_sources (config : Config) (sources : List Source) :
    (sources.foldl (addSource config) empty).model.Comprises Entity.IsStated := by
  apply comprises_foldl _ (Model.comprises_empty _)
  intro c s hc
  rw [addSource]
  split
  · rename_i result hread
    exact comprises_addReported hc (Source.isStated_of_readEntity hread)
  · exact hc

theorem comprises_tables [Naming] (tables : List Table) :
    (tables.foldl addTable empty).model.Comprises Entity.IsBuilt := by
  apply comprises_foldl _ (Model.comprises_empty _)
  intro c t hc
  exact comprises_addReported hc (Entity.isBuilt_ofTable t)

end Collection

end EntityModel
