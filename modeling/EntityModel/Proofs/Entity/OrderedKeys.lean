import EntityModel.Proofs.Entity.BoundFields
import EntityModel.Proofs.Entity.MergedKeys

/-!
# Foreign keys in order

The columns of foreign keys can be listed key by key or attribute by attribute. If the keys come in
the order of their first columns, and the columns of each in the order of the attributes, either
list is merged to the same keys.
-/

namespace EntityModel

namespace Entity

open KeyColumn (bindingsOn)

def keyColumns (e : Entity) : List KeyColumn :=
  e.foreignKeys.flatMap fun fk => fk.bindings.map fun b => ⟨(fk.name, fk.referenced), b⟩

def columnOn? (e : Entity) (field : String) : Option KeyColumn :=
  e.keyColumns.find? fun column => column.binding.origin == field

def fieldColumns (e : Entity) : List KeyColumn :=
  e.attributes.filterMap fun a => e.columnOn? a.name

def place (e : Entity) (field : String) : Nat := (e.attributes.map Attribute.name).idxOf field

/-- No two columns stand on one attribute, no two keys have the same name and target, the columns of
a key stand in the order of the attributes, and the keys in that of their first columns. -/
structure HasOrderedKeys (e : Entity) : Prop where
  nodup_boundFields : e.boundFields.Nodup
  nodup_keyEnds : e.keyEnds.Nodup
  bindings : ∀ fk ∈ e.foreignKeys,
    fk.bindings.Pairwise fun b b' => e.place b.origin < e.place b'.origin
  keys : e.foreignKeys.Pairwise fun fk fk' =>
    ∀ field ∈ fk.firstField?, ∀ field' ∈ fk'.firstField?, e.place field < e.place field'

variable {e : Entity} {column : KeyColumn} {field : String}

theorem mem_keyColumns_iff :
    column ∈ e.keyColumns ↔ ∃ fk ∈ e.foreignKeys,
      column.ends = (fk.name, fk.referenced) ∧ column.binding ∈ fk.bindings := by
  obtain ⟨ends, b⟩ := column
  simp only [keyColumns, List.mem_flatMap, List.mem_map, KeyColumn.mk.injEq]
  constructor
  · rintro ⟨fk, hfk, _, hb, rfl, rfl⟩
    exact ⟨fk, hfk, rfl, hb⟩
  · rintro ⟨fk, hfk, rfl, hb⟩
    exact ⟨fk, hfk, b, hb, rfl, rfl⟩

theorem map_origin_keyColumns (e : Entity) :
    (e.keyColumns.map fun column => column.binding.origin) = e.boundFields := by
  simp [keyColumns, boundFields, List.map_flatMap, Function.comp_def]

theorem isSome_columnOn?_iff : (e.columnOn? field).isSome = true ↔ field ∈ e.boundFields := by
  simp [columnOn?, List.find?_isSome, ← map_origin_keyColumns]

theorem of_columnOn?_eq_some (h : e.columnOn? field = some column) :
    column ∈ e.keyColumns ∧ column.binding.origin = field :=
  ⟨List.mem_of_find?_eq_some h, by simpa using List.find?_some h⟩

theorem merges_keyColumns (hends : e.keyEnds.Nodup) (hbound : ∀ fk ∈ e.foreignKeys, fk.bindings ≠ []) :
    e.Merges e.keyColumns := by
  refine ⟨?_, fun fk hfk => ?_⟩
  · rw [keyColumns, KeyColumn.ends_flatMap, KeyColumn.eraseDups_ends_flatMap hends hbound, keyEnds]
  · exact (KeyColumn.bindingsOn_flatMap ForeignKey.bindings hends hfk).symm

theorem pairwise_place (h : (e.attributes.map Attribute.name).Nodup) :
    e.attributes.Pairwise fun a a' => e.place a.name < e.place a'.name := by
  have hnames : (e.attributes.map Attribute.name).Pairwise fun x y => e.place x < e.place y := by
    refine List.pairwise_iff_getElem.2 fun i j hi hj hij => ?_
    rwa [place, place, h.idxOf_getElem i hi, h.idxOf_getElem j hj]
  rw [List.pairwise_map] at hnames
  exact hnames

theorem pairwise_fieldColumns (h : (e.attributes.map Attribute.name).Nodup) :
    e.fieldColumns.Pairwise fun c c' => e.place c.binding.origin < e.place c'.binding.origin := by
  rw [fieldColumns, List.pairwise_filterMap]
  refine (pairwise_place h).imp fun {a a'} hlt c hc c' hc' => ?_
  rwa [(of_columnOn?_eq_some hc).2, (of_columnOn?_eq_some hc').2]

theorem HasOrderedKeys.mem_fieldColumns_iff (h : e.HasOrderedKeys) (hagree : e.KeysAgree) :
    column ∈ e.fieldColumns ↔ column ∈ e.keyColumns := by
  rw [fieldColumns, List.mem_filterMap]
  constructor
  · rintro ⟨a, -, ha⟩
    exact (of_columnOn?_eq_some ha).1
  · intro hcolumn
    have hfield : column.binding.origin ∈ e.boundFields := by
      rw [← map_origin_keyColumns]
      exact List.mem_map_of_mem hcolumn
    obtain ⟨a, ha, hname⟩ := List.mem_map.1 (hagree.bound hfield)
    obtain ⟨found, hfound⟩ := Option.isSome_iff_exists.1 (isSome_columnOn?_iff.2 hfield)
    obtain ⟨hmem, horigin⟩ := of_columnOn?_eq_some hfound
    have hnodup := h.nodup_boundFields
    rw [← map_origin_keyColumns] at hnodup
    obtain rfl : found = column := List.inj_on_of_nodup_map hnodup hmem hcolumn horigin
    exact ⟨a, ha, hname ▸ hfound⟩

theorem HasOrderedKeys.first_lt (h : e.HasOrderedKeys) {fk fk' : ForeignKey} {b : Binding}
    {more : List Binding} (hfk : fk.bindings = b :: more)
    (hlt : ∀ field ∈ fk.firstField?, ∀ field' ∈ fk'.firstField?, e.place field < e.place field')
    (hfk' : fk' ∈ e.foreignKeys) {b' : Binding} (hb' : b' ∈ fk'.bindings) :
    e.place b.origin < e.place b'.origin := by
  have hsorted := h.bindings fk' hfk'
  cases hbindings : fk'.bindings with
  | nil =>
      rw [hbindings] at hb'
      cases hb'
  | cons first rest =>
      have hfirst : e.place b.origin < e.place first.origin :=
        hlt b.origin (by simp [ForeignKey.firstField?, hfk]) first.origin
          (by simp [ForeignKey.firstField?, hbindings])
      rw [hbindings, List.pairwise_cons] at hsorted
      rw [hbindings] at hb'
      rcases List.mem_cons.1 hb' with rfl | hrest
      · exact hfirst
      · exact Nat.lt_trans hfirst (hsorted.1 b' hrest)

theorem HasOrderedKeys.keyEnds_eq (h : e.HasOrderedKeys) (hagree : e.KeysAgree)
    (hnames : (e.attributes.map Attribute.name).Nodup) :
    e.keyEnds = (e.fieldColumns.map KeyColumn.ends).eraseDups := by
  have hmerges := merges_keyColumns h.nodup_keyEnds hagree.bindings_ne_nil
  refine eq_of_pairwise_lt (e.fieldColumns.map KeyColumn.ends).idxOf ?_
    (pairwise_idxOf_eraseDups _) fun ends => ?_
  · rw [keyEnds, List.pairwise_map]
    refine h.keys.imp_of_mem fun {fk fk'} hfk hfk' hlt => ?_
    obtain ⟨b, more, hbindings⟩ := List.exists_cons_of_ne_nil (hagree.bindings_ne_nil fk hfk)
    have hb : ⟨(fk.name, fk.referenced), b⟩ ∈ e.fieldColumns := by
      rw [h.mem_fieldColumns_iff hagree, mem_keyColumns_iff]
      exact ⟨fk, hfk, rfl, by simp [hbindings]⟩
    refine idxOf_map_lt (fun c : KeyColumn => e.place c.binding.origin) KeyColumn.ends
      (pairwise_fieldColumns hnames) hb fun c hc hends => ?_
    rw [h.mem_fieldColumns_iff hagree, mem_keyColumns_iff] at hc
    obtain ⟨fk'', hfk'', hends'', hc⟩ := hc
    -- the ends of the columns tell which key they belong to
    obtain rfl : fk'' = fk' :=
      List.inj_on_of_nodup_map h.nodup_keyEnds hfk'' hfk' (hends''.symm.trans hends)
    exact h.first_lt hbindings hlt hfk' hc
  · rw [hmerges.keyEnds, List.mem_eraseDups, List.mem_eraseDups, List.mem_map, List.mem_map]
    simp only [h.mem_fieldColumns_iff hagree]

/-- Ordered keys are merged from their columns attribute by attribute. -/
theorem HasOrderedKeys.merges_fieldColumns (h : e.HasOrderedKeys) (hagree : e.KeysAgree)
    (hnames : (e.attributes.map Attribute.name).Nodup) : e.Merges e.fieldColumns := by
  have hmerges := merges_keyColumns h.nodup_keyEnds hagree.bindings_ne_nil
  refine ⟨h.keyEnds_eq hagree hnames, fun fk hfk => ?_⟩
  refine eq_of_pairwise_lt (fun b => e.place b.origin) (h.bindings fk hfk) ?_ fun b => ?_
  · exact List.pairwise_map.2 ((pairwise_fieldColumns hnames).filter _)
  · rw [hmerges.bindings fk hfk, bindingsOn, bindingsOn, List.mem_map, List.mem_map]
    simp only [List.mem_filter, h.mem_fieldColumns_iff hagree]

def HasPlainKeys (e : Entity) : Prop :=
  ∀ fk ∈ e.foreignKeys, fk.origin = e.name ∧ fk.linkAnnotations = []

theorem HasPlainKeys.declareForeignKey (h : e.HasPlainKeys) (name referenced : String)
    (b : Binding) : (e.declareForeignKey name referenced b []).1.HasPlainKeys := by
  intro fk hfk
  rw [name_declareForeignKey]
  rcases foreignKeys_declareForeignKey e name referenced b [] with
    ⟨before, joined, after, hkeys, -, hresult⟩ | ⟨-, hresult⟩
  · have hold : ∀ fk ∈ before ++ joined :: after, fk.origin = e.name ∧ fk.linkAnnotations = [] := by
      rw [← hkeys]
      exact h
    rw [hresult, List.mem_append, List.mem_cons] at hfk
    rcases hfk with hbefore | rfl | hafter
    · exact hold fk (by simp [hbefore])
    · obtain ⟨horigin, hannotations⟩ := hold joined (by simp)
      exact ⟨horigin, by simp [ForeignKey.addBinding, hannotations]⟩
    · exact hold fk (by simp [hafter])
  · rw [hresult, List.mem_append, List.mem_singleton] at hfk
    rcases hfk with hold | rfl
    · exact h fk hold
    · exact ⟨rfl, rfl⟩

theorem Merges.foreignKeys_eq {columns : List KeyColumn} (h : e.Merges columns)
    (hplain : e.HasPlainKeys) :
    e.foreignKeys = (columns.map KeyColumn.ends).eraseDups.map fun ends =>
      ⟨ends.1, e.name, ends.2, bindingsOn columns ends, []⟩ := by
  rw [← h.keyEnds, Entity.keyEnds, List.map_map]
  refine (List.map_id _).symm.trans (List.map_congr_left fun fk hfk => ?_)
  obtain ⟨horigin, hannotations⟩ := hplain fk hfk
  rw [Function.comp_apply, ← h.bindings fk hfk, ← horigin, ← hannotations]
  rfl

end Entity

end EntityModel
