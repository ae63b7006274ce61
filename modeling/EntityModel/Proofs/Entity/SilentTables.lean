import EntityModel.Proofs.Entity.MergedKeys

/-!
# Tables without diagnostics

The entity of a table is made without a diagnostic if and only if its columns keep their names apart
and its keys know their own columns. It then has an attribute for each column, in their order, and
the keys have all their columns.
-/

namespace EntityModel

def Attribute.unmarked (a : Attribute) : Attribute := { a with isForeignKey := false }

namespace Entity

theorem map_unmarked_markForeignKey (name : String) (attributes : List Attribute) :
    (markForeignKey name attributes).map Attribute.unmarked =
      attributes.map Attribute.unmarked := by
  induction attributes with
  | nil => rfl
  | cons a rest ih =>
      rw [markForeignKey]
      by_cases ha : a.name = name
      · rw [if_pos ha]
        rfl
      · rw [if_neg ha, List.map_cons, ih, List.map_cons]

theorem map_unmarked_foldl_markForeignKey (bindings : List Binding)
    (attributes : List Attribute) :
    (bindings.foldl (fun as b => markForeignKey b.origin as) attributes).map Attribute.unmarked =
      attributes.map Attribute.unmarked := by
  induction bindings generalizing attributes with
  | nil => rfl
  | cons b bindings ih => rw [List.foldl_cons, ih, map_unmarked_markForeignKey]

end Entity

section Tables

variable [Naming]

def Table.fieldNames (t : Table) : List String := t.columns.map fun c => attributeNameOf c.name

/-- No two columns are to have the same attribute, and keys use columns of the table only. -/
structure Table.IsSound (t : Table) : Prop where
  nodup_fieldNames : t.fieldNames.Nodup
  known : ∀ key ∈ t.foreignKeys, ∀ pair ∈ key.columnPairs, attributeNameOf pair.1 ∈ t.fieldNames

namespace Entity

theorem foldl_addColumn_eq_nil_iff {e : Entity} (h : (e.attributes.map Attribute.name).Nodup)
    (ds : Diagnostics) (columns : List Column) :
    (columns.foldl addColumn (e, ds)).2 = [] ↔
      ds = [] ∧ (e.attributes.map Attribute.name ++
        columns.map fun c => attributeNameOf c.name).Nodup := by
  induction columns generalizing e ds with
  | nil => simp [h]
  | cons c columns ih =>
      rw [List.foldl_cons, addColumn, List.map_cons]
      split
      · rename_i htaken
        have hmem := attribute?_isSome_iff.1 htaken
        rw [ih h, List.nodup_middle, List.nodup_cons, List.mem_append]
        constructor
        · rintro ⟨hnil, -⟩
          simp at hnil
        · rintro ⟨-, hnew, -⟩
          exact absurd (.inl hmem) hnew
      · rename_i hfree
        have hnew : attributeNameOf c.name ∉ e.attributes.map Attribute.name :=
          fun hmem => hfree (attribute?_isSome_iff.2 hmem)
        have hnames : (e.addAttribute c.toAttribute).attributes.map Attribute.name =
            e.attributes.map Attribute.name ++ [attributeNameOf c.name] := by
          simp [Entity.addAttribute, Column.toAttribute, Attribute.ofType]
        have hnodup : ((e.addAttribute c.toAttribute).attributes.map Attribute.name).Nodup := by
          rw [hnames, List.nodup_middle, List.append_nil, List.nodup_cons]
          exact ⟨hnew, h⟩
        rw [ih hnodup, hnames, List.append_assoc, List.singleton_append]

theorem foldl_addColumn_of_nodup {e : Entity} (ds : Diagnostics) {columns : List Column}
    (h : (e.attributes.map Attribute.name ++
      columns.map fun c => attributeNameOf c.name).Nodup) :
    columns.foldl addColumn (e, ds) =
      ({ e with attributes := e.attributes ++ columns.map Column.toAttribute }, ds) := by
  induction columns generalizing e with
  | nil => simp
  | cons c columns ih =>
      rw [List.map_cons] at h
      have hfree : ¬ (e.attribute? (attributeNameOf c.name)).isSome = true := by
        rw [attribute?_isSome_iff]
        rw [List.nodup_middle, List.nodup_cons, List.mem_append, not_or] at h
        exact h.1.1
      have hrest := ih (e := e.addAttribute c.toAttribute) (by
        simpa [Entity.addAttribute, Column.toAttribute, Attribute.ofType] using h)
      rw [List.foldl_cons, addColumn, if_neg hfree, hrest]
      simp [Entity.addAttribute]

theorem foldl_addTableKey_eq_nil_iff {e : Entity} (ds : Diagnostics) (keys : List TableKey) :
    (keys.foldl addTableKey (e, ds)).2 = [] ↔
      ds = [] ∧ ∀ key ∈ keys, ∀ pair ∈ key.columnPairs,
        attributeNameOf pair.1 ∈ e.attributes.map Attribute.name := by
  induction keys generalizing e ds with
  | nil => simp
  | cons key keys ih =>
      rw [List.foldl_cons, addTableKey, ih, names_foldl_markForeignKey, List.forall_mem_cons,
        List.append_eq_nil_iff, List.map_eq_nil_iff, List.filter_eq_nil_iff, and_assoc]
      simp only [Bool.not_eq_true', Bool.not_eq_false, attribute?_isSome_iff]

theorem foldl_addTableKey_frame (s : Entity × Diagnostics) (keys : List TableKey) :
    (keys.foldl addTableKey s).1.table? = s.1.table? ∧
      (keys.foldl addTableKey s).1.attributes.map Attribute.unmarked =
        s.1.attributes.map Attribute.unmarked := by
  induction keys generalizing s with
  | nil => exact ⟨rfl, rfl⟩
  | cons key keys ih =>
      obtain ⟨htable, hattributes⟩ := ih (addTableKey s key)
      rw [List.foldl_cons]
      exact ⟨htable, hattributes.trans (map_unmarked_foldl_markForeignKey _ _)⟩

end Entity

variable {t : Table}

namespace Entity

def bare (t : Table) : Entity := { ofName (entityNameOf t.name) with table? := some t.name }

theorem ofTable_eq (t : Table) :
    ofTable t = t.foreignKeys.foldl addTableKey (t.columns.foldl addColumn (bare t, [])) := rfl

theorem diagnostics_ofTable_eq_nil_iff (t : Table) : (ofTable t).2 = [] ↔ t.IsSound := by
  have hnames (field : String) :
      field ∈ (t.columns.foldl addColumn (bare t, [])).1.attributes.map Attribute.name ↔
        field ∈ t.fieldNames := by
    have hstart : (bare t).HasColumns (entityNameOf t.name) [] [] := ⟨rfl, by simp [bare, ofName], rfl⟩
    exact (HasColumns.foldl_addColumn (s := (_, [])) hstart t.columns).mem_names_iff field
  have hcolumns := foldl_addColumn_eq_nil_iff (e := bare t) .nil [] t.columns
  have hkeys := foldl_addTableKey_eq_nil_iff (e := (t.columns.foldl addColumn (bare t, [])).1)
    (t.columns.foldl addColumn (bare t, [])).2 t.foreignKeys
  rw [hcolumns] at hkeys
  simp only [hnames] at hkeys
  exact hkeys.trans ⟨fun h => ⟨h.1.2, h.2⟩, fun h => ⟨⟨trivial, h.1⟩, h.2⟩⟩

theorem name_ofTable (t : Table) : (ofTable t).1.name = entityNameOf t.name :=
  (hasColumns_ofTable t).name_eq

/-- A sound table gives each column its attribute, in order. -/
theorem ofTable_of_isSound (h : t.IsSound) :
    (ofTable t).1.table? = some t.name ∧
      (ofTable t).1.attributes.map Attribute.unmarked = t.columns.map Column.toAttribute := by
  have hcolumns := foldl_addColumn_of_nodup (e := bare t) [] h.nodup_fieldNames
  obtain ⟨htable, hattributes⟩ :=
    foldl_addTableKey_frame (t.columns.foldl addColumn (bare t, [])) t.foreignKeys
  rw [hcolumns] at htable hattributes
  rw [ofTable_eq, hcolumns]
  refine ⟨htable, hattributes.trans ?_⟩
  rw [bare, ofName, List.nil_append, List.map_map]
  rfl

theorem names_ofTable (h : t.IsSound) :
    (ofTable t).1.attributes.map Attribute.name = t.fieldNames := by
  have hattributes := congrArg (List.map Attribute.name) (ofTable_of_isSound h).2
  rw [List.map_map, List.map_map] at hattributes
  exact hattributes

end Entity

theorem Table.bindingsOf_of_isSound (h : t.IsSound) {key : TableKey} (hkey : key ∈ t.foreignKeys) :
    t.bindingsOf key = key.columnPairs.map fun pair =>
      ⟨attributeNameOf pair.1, some (attributeNameOf pair.2)⟩ := by
  rw [Table.bindingsOf, List.filter_eq_self.2]
  intro pair hpair
  exact List.contains_iff_mem.2 (h.known key hkey pair hpair)

end Tables

end EntityModel
