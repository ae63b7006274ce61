import EntityModel.Proofs.Compilation.SilentStages
import Mathlib.Data.List.Forall2

/-!
# Consistent schemas

A schema whose names stay apart when they are converted, and whose foreign keys use columns that
exist, compiles without diagnostics. Names are converted at several places and looked up at others;
the conversion is arbitrary, so that the places have to agree.
-/

namespace EntityModel

namespace Schema

variable [Naming] {schema : Schema}

/-- No two names of tables, or of columns of one table, are equal or become equal. Each pair of
columns of a foreign key has its columns in the two tables, and keys with one name lie between the
same tables. -/
structure IsConsistent (schema : Schema) : Prop where
  nodup_tables : (schema.tables.map Table.name).Nodup
  entityNameOf_injective : ∀ t ∈ schema.tables, ∀ t' ∈ schema.tables,
    entityNameOf t.name = entityNameOf t'.name → t.name = t'.name
  nodup_columns : ∀ t ∈ schema.tables, (t.columns.map Column.name).Nodup
  attributeNameOf_injective : ∀ t ∈ schema.tables, ∀ c ∈ t.columns, ∀ c' ∈ t.columns,
    attributeNameOf c.name = attributeNameOf c'.name → c.name = c'.name
  columns : ∀ t ∈ schema.tables, ∀ key ∈ t.foreignKeys, ∀ pair ∈ key.columnPairs,
    pair.1 ∈ t.columns.map Column.name
  references : ∀ t ∈ schema.tables, ∀ key ∈ t.foreignKeys, ∀ pair ∈ key.columnPairs,
    ∃ t' ∈ schema.tables, t'.name = key.referencedTable ∧ pair.2 ∈ t'.columns.map Column.name
  keyNames : ∀ t ∈ schema.tables, ∀ t' ∈ schema.tables, ∀ key ∈ t.foreignKeys,
    ∀ key' ∈ t'.foreignKeys, key.name = key'.name →
      t.name = t'.name ∧ key.referencedTable = key'.referencedTable

namespace IsConsistent

variable {t : Table}

theorem isSound (h : schema.IsConsistent) (ht : t ∈ schema.tables) : t.IsSound := by
  constructor
  · have hnodup := (h.nodup_columns t ht).map_on (f := attributeNameOf)
      fun name hname name' hname' heq => by
      obtain ⟨c, hc, rfl⟩ := List.mem_map.1 hname
      obtain ⟨c', hc', rfl⟩ := List.mem_map.1 hname'
      exact h.attributeNameOf_injective t ht c hc c' hc' heq
    rwa [List.map_map] at hnodup
  · intro key hkey pair hpair
    obtain ⟨c, hc, hname⟩ := List.mem_map.1 (h.columns t ht key hkey pair hpair)
    rw [← hname]
    exact List.mem_map_of_mem hc

theorem nodup_entityNames (h : schema.IsConsistent) :
    (schema.tables.map fun t => entityNameOf t.name).Nodup := by
  have hnodup := h.nodup_tables.map_on (f := entityNameOf) fun name hname name' hname' heq => by
    obtain ⟨t, ht, rfl⟩ := List.mem_map.1 hname
    obtain ⟨t', ht', rfl⟩ := List.mem_map.1 hname'
    exact h.entityNameOf_injective t ht t' ht' heq
  rwa [List.map_map] at hnodup

theorem entity?_collected (h : schema.IsConsistent) (ht : t ∈ schema.tables) :
    schema.collected.model.entity? (entityNameOf t.name) = some (Entity.ofTable t).1 := by
  obtain ⟨hkeyed, hlist⟩ := collected_of_nodup h.nodup_entityNames
  rw [hkeyed.entity?_eq_some_iff, hlist]
  exact ⟨List.mem_map_of_mem ht, Entity.name_ofTable t⟩

theorem resolves_foreignKeyOf (h : schema.IsConsistent) (ht : t ∈ schema.tables) {key : TableKey}
    (hkey : key ∈ t.foreignKeys) (hbinds : t.binds key = true) :
    schema.collected.model.Resolves (t.foreignKeyOf key) := by
  have hbindings := Table.bindingsOf_of_isSound (h.isSound ht) hkey
  have hpairs : key.columnPairs ≠ [] := by
    intro hnil
    simp [Table.binds, hbindings, hnil] at hbinds
  obtain ⟨first, _, hfirst⟩ := List.exists_cons_of_ne_nil hpairs
  obtain ⟨target, htarget, hname, -⟩ :=
    h.references t ht key hkey first (hfirst ▸ List.mem_cons_self ..)
  refine ⟨(Entity.ofTable target).1, ?_, fun b hb => ?_⟩
  · have hreferenced : (t.foreignKeyOf key).referenced = entityNameOf target.name := by
      rw [hname]
      rfl
    rw [hreferenced]
    exact h.entity?_collected htarget
  · have hb' : b ∈ t.bindingsOf key := hb
    rw [hbindings] at hb'
    obtain ⟨pair, hpair, rfl⟩ := List.mem_map.1 hb'
    obtain ⟨target', htarget', hname', hcolumn⟩ := h.references t ht key hkey pair hpair
    obtain rfl : target' = target :=
      List.inj_on_of_nodup_map h.nodup_tables htarget' htarget (hname'.trans hname.symm)
    obtain ⟨c, hc, hcolumn⟩ := List.mem_map.1 hcolumn
    refine ⟨attributeNameOf pair.2, ?_, rfl⟩
    rw [Entity.names_ofTable (h.isSound htarget), ← hcolumn]
    exact List.mem_map_of_mem hc

theorem exists_table_of_mem_collected (h : schema.IsConsistent) {e : Entity}
    (he : e ∈ schema.collected.model.toList) {fk : ForeignKey} (hfk : fk ∈ e.foreignKeys) :
    ∃ t ∈ schema.tables, ∃ key ∈ t.foreignKeys, t.binds key = true ∧
      e.name = entityNameOf t.name ∧ fk = t.foreignKeyOf key := by
  rw [(collected_of_nodup h.nodup_entityNames).2] at he
  obtain ⟨t, ht, rfl⟩ := List.mem_map.1 he
  rw [Entity.foreignKeys_ofTable] at hfk
  obtain ⟨key, hkey, rfl⟩ := List.mem_map.1 hfk
  obtain ⟨hkey, hbinds⟩ := List.mem_filter.1 hkey
  exact ⟨t, ht, key, hkey, hbinds, Entity.name_ofTable t, rfl⟩

theorem checkKeyNames_collected (h : schema.IsConsistent) :
    schema.collected.model.checkKeyNames = [] := by
  rw [Model.checkKeyNames_eq_nil_iff]
  intro o ho p hp hname
  obtain ⟨e, he, fk, hfk, honame, hoends⟩ := Model.exists_key_of_mem_keyOccurrences ho
  obtain ⟨e', he', fk', hfk', hpname, hpends⟩ := Model.exists_key_of_mem_keyOccurrences hp
  obtain ⟨t, ht, key, hkey, -, he, rfl⟩ := h.exists_table_of_mem_collected he hfk
  obtain ⟨t', ht', key', hkey', -, he', rfl⟩ := h.exists_table_of_mem_collected he' hfk'
  have hkeys : key.name = key'.name := honame.symm.trans (hname.trans hpname)
  obtain ⟨htable, hreferenced⟩ := h.keyNames t ht t' ht' key hkey key' hkey' hkeys
  rw [hoends, hpends, he, he', htable, Table.foreignKeyOf, Table.foreignKeyOf, hreferenced]

end IsConsistent

end Schema

/-- A consistent schema compiles without diagnostics, to one entity for each table and one attribute
for each column, in their orders. -/
theorem compileSchema_of_isConsistent [Naming] (config : Config) {schema : Schema}
    (h : schema.IsConsistent) :
    (compileSchema config schema).diagnostics = [] ∧
      List.Forall₂
        (fun (t : Table) (e : Entity) =>
          e.name = entityNameOf t.name ∧ e.table? = some t.name ∧
            e.attributes.map Attribute.unmarked = t.columns.map Column.toAttribute)
        schema.tables (compileSchema config schema).model.toList := by
  obtain ⟨hkeyed, hlist⟩ := Schema.collected_of_nodup h.nodup_entityNames
  have hsilent : schema.collected.diagnostics = [] :=
    Schema.diagnostics_collected_eq_nil_iff.2 ⟨fun t ht => h.isSound ht, h.nodup_entityNames⟩
  have hkeys : ∀ e ∈ schema.collected.model.toList, ∀ fk ∈ e.foreignKeys,
      schema.collected.model.Resolves fk := by
    intro e he fk hfk
    obtain ⟨t, ht, key, hkey, hbinds, -, rfl⟩ := h.exists_table_of_mem_collected he hfk
    exact h.resolves_foreignKeyOf ht hkey hbinds
  have hcompiled : compileSchema config schema =
      ⟨(schema.collected.model.resolveLinks config.links config.listSuffix).1,
        schema.collected.model.checkKeyNames⟩ :=
    Compilation.ofCollection_of_resolves hkeyed hsilent hkeys _ _
  rw [hcompiled]
  refine ⟨h.checkKeyNames_collected, ?_⟩
  rw [hkeyed.toList_resolveLinks, hlist, List.map_map, List.forall₂_map_right_iff,
    List.forall₂_same]
  intro t ht
  obtain ⟨htable, hattributes⟩ := Entity.ofTable_of_isSound (h.isSound ht)
  rw [Function.comp_apply, Entity.addAllNamed_eq]
  exact ⟨Entity.name_ofTable t, htable, hattributes⟩

def purchases : Schema where
  tables :=
    [⟨"CUSTOMER", [(Column.ofType "ID" 4).asPrimaryKey, Column.ofType "PARENT_ID" 4],
        [⟨"FK_PARENT", "CUSTOMER", [("PARENT_ID", "ID")]⟩]⟩,
      ⟨"PURCHASE",
        [(Column.ofType "CUSTOMER_ID" 4).asPrimaryKey, (Column.ofType "NO" 5).asPrimaryKey],
        [⟨"FK_BUYER", "CUSTOMER", [("CUSTOMER_ID", "ID")]⟩, ⟨"FK_NONE", "GHOST", []⟩]⟩,
      ⟨"PURCHASE_LINE",
        [Column.ofType "CUSTOMER_ID" 4, Column.ofType "PURCHASE_NO" 5, Column.ofType "NOTE" 12],
        [⟨"FK_PURCHASE", "PURCHASE", [("CUSTOMER_ID", "CUSTOMER_ID"), ("PURCHASE_NO", "NO")]⟩,
          ⟨"FK_PAYER", "CUSTOMER", [("CUSTOMER_ID", "ID")]⟩]⟩]

theorem compileSchema_of_isConsistent_purchases :
    purchases.IsConsistent ∧ (compileSchema .default purchases).diagnostics = [] ∧
      (compileSchema .default purchases).model.toList.map
          (fun e => (e.name, e.attributes.map Attribute.name)) =
        [("Customer", ["id", "parentId"]), ("Purchase", ["customerId", "no"]),
          ("PurchaseLine", ["customerId", "purchaseNo", "note"])] := by
  have hconsistent : purchases.IsConsistent :=
    ⟨by decide +kernel, by decide +kernel, by decide +kernel, by decide +kernel, by decide +kernel,
      by decide +kernel, by decide +kernel⟩
  exact ⟨hconsistent, (compileSchema_of_isConsistent .default hconsistent).1, by decide +kernel⟩

end EntityModel
