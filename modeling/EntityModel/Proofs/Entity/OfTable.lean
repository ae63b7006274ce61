import EntityModel.Entity.OfTable
import EntityModel.Proofs.Entity.Declaration

/-!
# Entities of tables

The columns and keys of a table are declarations too. Unlike the keys of statements, two keys of
a table may share their name and target.
-/

namespace EntityModel

namespace Entity

variable [Naming] {s : Entity × Diagnostics}

theorem isBuilt_addColumn (hs : s.1.IsBuilt) (c : Column) : (addColumn s c).1.IsBuilt := by
  obtain ⟨e, ds⟩ := s
  simp only [addColumn]
  split
  · exact hs
  · rename_i hfree
    apply IsBuilt.addAttribute hs
    intro hmem
    exact hfree (attribute?_isSome_iff.2 hmem)

theorem isBuilt_addTableKey (hs : s.1.IsBuilt) (key : TableKey) :
    (addTableKey s key).1.IsBuilt := by
  obtain ⟨e, ds⟩ := s
  simp only [addTableKey]
  refine ⟨?_, hs.links_eq_nil, ?_⟩
  · rw [names_foldl_markForeignKey]
    exact hs.nodup_names
  · intro fk hfk
    rw [names_foldl_markForeignKey]
    rcases List.mem_append.1 hfk with hold | hnew
    · exact hs.keys fk hold
    · split at hnew
      · cases hnew
      · rename_i hne
        obtain rfl := List.mem_singleton.1 hnew
        refine ⟨by simpa using hne, fun b hb => ?_⟩
        obtain ⟨pair, hpair, rfl⟩ := List.mem_map.1 hb
        have hknown := (List.mem_filter.1 hpair).2
        exact attribute?_isSome_iff.1 hknown

private theorem isBuilt_foldl_addColumn (hs : s.1.IsBuilt) (columns : List Column) :
    (columns.foldl addColumn s).1.IsBuilt := by
  induction columns generalizing s with
  | nil => exact hs
  | cons c columns ih => exact ih (isBuilt_addColumn hs c)

private theorem isBuilt_foldl_addTableKey (hs : s.1.IsBuilt) (keys : List TableKey) :
    (keys.foldl addTableKey s).1.IsBuilt := by
  induction keys generalizing s with
  | nil => exact hs
  | cons key keys ih => exact ih (isBuilt_addTableKey hs key)

theorem isBuilt_ofTable (t : Table) : (ofTable t).1.IsBuilt := by
  have hstart : { ofName (entityNameOf t.name) with table? := some t.name }.IsBuilt :=
    ⟨by simp [ofName], rfl, by simp [ofName]⟩
  rw [ofTable]
  apply isBuilt_foldl_addTableKey
  apply isBuilt_foldl_addColumn
  exact hstart

end Entity

end EntityModel
