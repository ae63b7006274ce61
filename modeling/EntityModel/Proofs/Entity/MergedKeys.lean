import EntityModel.Proofs.Entity.Accounting
import EntityModel.Proofs.Entity.OfTable
import EntityModel.Proofs.Grouping

/-!
# Merged foreign keys

Columns with one name and one target make one foreign key. The statements of an entity declare
their columns one by one, and the declarations merge them. A table names whole keys; they are not
merged, so that its entity has two keys of one name and target if the table has.
-/

namespace EntityModel

structure KeyColumn where
  ends : String × String
  binding : Binding

namespace KeyColumn

def bindingsOn (columns : List KeyColumn) (ends : String × String) : List Binding :=
  (columns.filter fun column => column.ends == ends).map binding

variable {columns : List KeyColumn} {column : KeyColumn} {ends : String × String}

theorem bindingsOn_concat_self (columns : List KeyColumn) (column : KeyColumn) :
    bindingsOn (columns ++ [column]) column.ends =
      bindingsOn columns column.ends ++ [column.binding] := by
  simp [bindingsOn]

theorem bindingsOn_concat_of_ne (h : column.ends ≠ ends) (columns : List KeyColumn) :
    bindingsOn (columns ++ [column]) ends = bindingsOn columns ends := by
  simp [bindingsOn, h]

theorem bindingsOn_append (columns more : List KeyColumn) (ends : String × String) :
    bindingsOn (columns ++ more) ends = bindingsOn columns ends ++ bindingsOn more ends := by
  simp [bindingsOn]

theorem bindingsOn_of_notMem (h : ends ∉ columns.map KeyColumn.ends) :
    bindingsOn columns ends = [] := by
  rw [bindingsOn, List.map_eq_nil_iff, List.filter_eq_nil_iff]
  intro column hcolumn hends
  exact h (List.mem_map.2 ⟨column, hcolumn, beq_iff_eq.1 hends⟩)

section Groups

variable {α : Type} {ends : α → String × String} {bindings : α → List Binding} {groups : List α}

theorem ends_flatMap (groups : List α) :
    (groups.flatMap fun g => (bindings g).map fun b => (⟨ends g, b⟩ : KeyColumn)).map
      KeyColumn.ends = groups.flatMap fun g => (bindings g).map fun _ => ends g := by
  simp [List.map_flatMap, Function.comp_def]

theorem eraseDups_ends_flatMap (hnodup : (groups.map ends).Nodup)
    (hne : ∀ g ∈ groups, bindings g ≠ []) :
    (groups.flatMap fun g => (bindings g).map fun _ => ends g).eraseDups = groups.map ends := by
  induction groups with
  | nil => rfl
  | cons g rest ih =>
      rw [List.map_cons, List.nodup_cons] at hnodup
      obtain ⟨b, more, hb⟩ := List.exists_cons_of_ne_nil (hne g (List.mem_cons_self ..))
      have hsame : (more.map fun _ => ends g).filter (fun other => !other == ends g) = [] := by
        simp
      have hothers : (rest.flatMap fun g => (bindings g).map fun _ => ends g).filter
          (fun other => !other == ends g) =
            rest.flatMap fun g => (bindings g).map fun _ => ends g := by
        rw [List.filter_eq_self]
        intro other hother
        obtain ⟨g', hg', hmem⟩ := List.mem_flatMap.1 hother
        obtain ⟨b', -, rfl⟩ := List.mem_map.1 hmem
        have hne : ends g' ≠ ends g := fun heq =>
          hnodup.1 (List.mem_map.2 ⟨g', hg', heq⟩)
        simpa using hne
      rw [List.flatMap_cons, hb, List.map_cons, List.cons_append, List.eraseDups_cons,
        List.filter_append, hsame, List.nil_append, hothers,
        ih hnodup.2 fun g' hg' => hne g' (List.mem_cons_of_mem _ hg'), List.map_cons]

theorem bindingsOn_flatMap (bindings : α → List Binding) (hnodup : (groups.map ends).Nodup)
    {g : α} (hg : g ∈ groups) :
    bindingsOn (groups.flatMap fun g => (bindings g).map fun b => ⟨ends g, b⟩) (ends g) =
      bindings g := by
  induction groups with
  | nil => cases hg
  | cons first rest ih =>
      rw [List.map_cons, List.nodup_cons] at hnodup
      rw [List.flatMap_cons, bindingsOn_append]
      rcases List.mem_cons.1 hg with rfl | hrest
      · have hothers : ends g ∉ (rest.flatMap fun g =>
            (bindings g).map fun b => (⟨ends g, b⟩ : KeyColumn)).map KeyColumn.ends := by
          rw [ends_flatMap]
          intro hmem
          obtain ⟨g', hg', hends⟩ := List.mem_flatMap.1 hmem
          obtain ⟨b', -, heq⟩ := List.mem_map.1 hends
          exact hnodup.1 (List.mem_map.2 ⟨g', hg', heq⟩)
        rw [bindingsOn_of_notMem hothers, List.append_nil]
        simp [bindingsOn, List.filter_map, Function.comp_def]
      · have hne : ends first ≠ ends g := fun heq =>
          hnodup.1 (List.mem_map.2 ⟨g, hrest, heq.symm⟩)
        have hfirst : ends g ∉
            ((bindings first).map fun b => (⟨ends first, b⟩ : KeyColumn)).map KeyColumn.ends := by
          simpa [List.mem_map] using fun _ _ => hne
        rw [bindingsOn_of_notMem hfirst, List.nil_append, ih hnodup.2 hrest]

end Groups

end KeyColumn

namespace Entity

open KeyColumn (bindingsOn)

/-- The foreign keys are those of the columns: one for each name and target, in the order of the
first columns, with all the columns that have them, in their order. -/
structure Merges (e : Entity) (columns : List KeyColumn) : Prop where
  keyEnds : e.keyEnds = (columns.map KeyColumn.ends).eraseDups
  bindings : ∀ fk ∈ e.foreignKeys, fk.bindings = bindingsOn columns (fk.name, fk.referenced)

variable {e : Entity} {columns : List KeyColumn}

theorem Merges.nodup_keyEnds (h : e.Merges columns) : e.keyEnds.Nodup := by
  rw [h.keyEnds]
  exact nodup_eraseDups _

theorem Merges.mem_ends_iff (h : e.Merges columns) {ends : String × String} :
    ends ∈ columns.map KeyColumn.ends ↔
      ∃ fk ∈ e.foreignKeys, (fk.name, fk.referenced) = ends := by
  rw [← List.mem_eraseDups, ← h.keyEnds, Entity.keyEnds, List.mem_map]

theorem merges_ofName (name : String) : (ofName name).Merges [] :=
  ⟨rfl, by simp [ofName]⟩

theorem Merges.foreignKeys_declareForeignKey (h : e.Merges columns) (column : KeyColumn)
    (uses : List AnnotationUse) :
    (∃ before joined after, e.foreignKeys = before ++ joined :: after ∧
        (joined.name, joined.referenced) = column.ends ∧
        (∀ fk ∈ before ++ after, column.ends ≠ (fk.name, fk.referenced)) ∧
        (e.declareForeignKey column.ends.1 column.ends.2 column.binding uses).1.foreignKeys =
          before ++ (joined.addBinding column.binding uses).1 :: after) ∨
      column.ends ∉ columns.map KeyColumn.ends ∧
        (e.declareForeignKey column.ends.1 column.ends.2 column.binding uses).1.foreignKeys =
          e.foreignKeys ++
            [⟨column.ends.1, e.name, column.ends.2, [column.binding], uses⟩] := by
  rcases Entity.foreignKeys_declareForeignKey e column.ends.1 column.ends.2 column.binding uses with
    ⟨before, joined, after, hkeys, ⟨hname, hreferenced⟩, hresult⟩ | ⟨hnew, hresult⟩
  · have hends : (joined.name, joined.referenced) = column.ends := Prod.ext hname hreferenced
    refine .inl ⟨before, joined, after, hkeys, hends, ?_, hresult⟩
    have hnodup := h.nodup_keyEnds
    rw [Entity.keyEnds, hkeys, List.map_append, List.map_cons, List.nodup_middle, hends,
      List.nodup_cons, ← List.map_append] at hnodup
    intro fk hfk heq
    exact hnodup.1 (List.mem_map.2 ⟨fk, hfk, heq.symm⟩)
  · refine .inr ⟨fun hmem => ?_, hresult⟩
    obtain ⟨fk, hfk, hends⟩ := h.mem_ends_iff.1 hmem
    exact hnew fk hfk (Prod.mk.inj hends)

theorem Merges.of_mem_declareForeignKey (h : e.Merges columns) (column : KeyColumn)
    {uses : List AnnotationUse} {fk : ForeignKey}
    (hfk : fk ∈ (e.declareForeignKey column.ends.1 column.ends.2 column.binding
      uses).1.foreignKeys) :
    (fk ∈ e.foreignKeys ∧ column.ends ≠ (fk.name, fk.referenced)) ∨
      (∃ joined ∈ e.foreignKeys, (joined.name, joined.referenced) = column.ends ∧
        fk = (joined.addBinding column.binding uses).1) ∨
      column.ends ∉ columns.map KeyColumn.ends ∧
        fk = ⟨column.ends.1, e.name, column.ends.2, [column.binding], uses⟩ := by
  rcases h.foreignKeys_declareForeignKey column uses with
    ⟨before, joined, after, hkeys, hends, hother, hresult⟩ | ⟨hnew, hresult⟩
  · rw [hresult, List.mem_append, List.mem_cons, or_left_comm, ← List.mem_append] at hfk
    rcases hfk with rfl | hfk
    · exact .inr (.inl ⟨joined, by simp [hkeys], hends, rfl⟩)
    · refine .inl ⟨?_, hother fk hfk⟩
      rw [hkeys, List.mem_append, List.mem_cons, or_left_comm, ← List.mem_append]
      exact .inr hfk
  · rw [hresult, List.mem_append, List.mem_singleton] at hfk
    rcases hfk with hold | rfl
    · refine .inl ⟨hold, fun heq => hnew (h.mem_ends_iff.2 ⟨fk, hold, heq.symm⟩)⟩
    · exact .inr (.inr ⟨hnew, rfl⟩)

/-- A declared column joins the key with its name and target, or opens one behind the others. -/
theorem Merges.declareForeignKey (h : e.Merges columns) (column : KeyColumn)
    (uses : List AnnotationUse) :
    (e.declareForeignKey column.ends.1 column.ends.2 column.binding uses).1.Merges
      (columns ++ [column]) := by
  refine ⟨?_, fun fk hfk => ?_⟩
  · rw [List.map_append, List.map_singleton, eraseDups_concat]
    rcases h.foreignKeys_declareForeignKey column uses with
      ⟨before, joined, after, hkeys, hends, -, hresult⟩ | ⟨hnew, hresult⟩
    · have hmem : column.ends ∈ columns.map KeyColumn.ends :=
        h.mem_ends_iff.2 ⟨joined, by simp [hkeys], hends⟩
      rw [if_pos hmem, ← h.keyEnds, Entity.keyEnds, hresult, Entity.keyEnds, hkeys]
      simp [ForeignKey.addBinding]
    · rw [if_neg hnew, ← h.keyEnds, Entity.keyEnds, hresult, List.map_append]
      rfl
  · rcases h.of_mem_declareForeignKey column hfk with
      ⟨hold, hother⟩ | ⟨joined, hjoined, hends, rfl⟩ | ⟨hnew, rfl⟩
    · rw [KeyColumn.bindingsOn_concat_of_ne hother, h.bindings fk hold]
    · have hbindings := h.bindings joined hjoined
      rw [hends] at hbindings
      simp only [ForeignKey.addBinding, hends, KeyColumn.bindingsOn_concat_self, hbindings]
    · rw [KeyColumn.bindingsOn_concat_self, KeyColumn.bindingsOn_of_notMem hnew]
      rfl

end Entity

def Statement.column? (entity : String) (field : Statement) : Option KeyColumn :=
  field.target?.map fun target =>
    ⟨(target.keyName?.getD (defaultKeyName entity field.name), target.entity),
      ⟨field.name, target.attribute?⟩⟩

/-- The statements that declare the attributes of the entity: of those with one field, the first. -/
def Statement.declaring (statements : List Statement) : List Statement :=
  ((statements.filterMap Statement.declaration?).eraseDupsBy Statement.sameField).map Prod.fst

theorem Statement.declaring_concat (statements : List Statement) (st : Statement) :
    Statement.declaring (statements ++ [st]) =
      Statement.declaring statements ++ ((st.declaration?.filter fun d =>
        !((statements.filterMap Statement.declaration?).eraseDupsBy Statement.sameField).any
          (Statement.sameField d)).map Prod.fst).toList := by
  rw [declaring, List.filterMap_append, declaring]
  cases hdeclaration : st.declaration? with
  | none => simp [hdeclaration]
  | some d =>
      rw [List.filterMap_cons, hdeclaration, List.filterMap_nil, eraseDupsBy_concat,
        Option.filter_some]
      split
      · rename_i hdup
        simp [hdup]
      · rename_i hnew
        simp [hnew]

theorem Entity.Merges.of_foreignKeys_eq {e e' : Entity} {columns : List KeyColumn}
    (h : e.Merges columns) (heq : e'.foreignKeys = e.foreignKeys) : e'.Merges columns := by
  refine ⟨?_, fun fk hfk => h.bindings fk (heq ▸ hfk)⟩
  rw [Entity.keyEnds, heq, ← h.keyEnds, Entity.keyEnds]

namespace Assembly

variable {s : Assembly} {columns : List KeyColumn}

theorem merges_addAttribute (h : s.entity.Merges columns) (field : Statement)
    (type : NeutralType) :
    (s.addAttribute field type).entity.Merges
      (columns ++ (field.column? s.entity.name).toList) := by
  rw [addAttribute_eq]
  cases htarget : field.target? with
  | none =>
      have hcolumn : field.column? s.entity.name = none := by
        rw [Statement.column?, htarget, Option.map_none]
      rw [hcolumn, Option.toList_none, List.append_nil]
      exact h.of_foreignKeys_eq rfl
  | some target =>
      have hcolumn : field.column? s.entity.name =
          some ⟨(target.keyName?.getD (defaultKeyName s.entity.name field.name), target.entity),
            ⟨field.name, target.attribute?⟩⟩ := by
        rw [Statement.column?, htarget, Option.map_some]
      have hadded : (s.entity.addAttribute (fieldAttribute field type
          (field.usesFor .onAttribute) field.tagUses)).Merges columns := h.of_foreignKeys_eq rfl
      rw [hcolumn, Option.toList_some]
      exact hadded.declareForeignKey
        ⟨(target.keyName?.getD (defaultKeyName s.entity.name field.name), target.entity),
          ⟨field.name, target.attribute?⟩⟩ (field.usesFor .onLink)

theorem merges_addAttribute_concat {fields : List Statement}
    (h : s.entity.Merges (fields.filterMap (Statement.column? s.entity.name)))
    (field : Statement) (type : NeutralType) :
    (s.addAttribute field type).entity.Merges
      ((fields ++ [field]).filterMap (Statement.column? s.entity.name)) := by
  rw [List.filterMap_append]
  cases hcolumn : field.column? s.entity.name <;>
    simpa [hcolumn] using merges_addAttribute h field type

theorem addStatement_cases {name : String} {accounts : List Account}
    (hs : s.Balances name accounts) (st : Statement) :
    let declared := (st.declaration?.filter fun d =>
      !(accounts.filterMap Account.declaration?).any (Statement.sameField d)).map Prod.fst
    (declared = none ∧ Entity.SameFields s.entity (s.addStatement st).entity) ∨
      (declared = some st ∧ s.entity.hasField st.name = false ∧
        ∃ type, NeutralType.ofName? st.typeName = some type ∧
          s.addStatement st = s.addAttribute st type) := by
  have hfield : s.entity.hasField st.name =
      (accounts.filterMap Account.declaration?).any fun d => st.name == d.1.name := by
    rw [hs.entity, Entity.hasField_ofAccounts]
  rw [addStatement]
  cases hblock : st.isEntityBlock with
  | true =>
      have hnone : st.declaration? = none := by simp [Statement.declaration?, hblock]
      exact .inl ⟨by simp [hnone], sameFields_addBlock s st⟩
  | false =>
      simp only [Bool.false_eq_true, if_false, addField]
      cases htype : NeutralType.ofName? st.typeName with
      | none =>
          have hnone : st.declaration? = none := by simp [Statement.declaration?, hblock, htype]
          exact .inl ⟨by simp [hnone], .refl _⟩
      | some type =>
          have hsome : st.declaration? = some (st, type) := by
            simp [Statement.declaration?, hblock, htype]
          have hsame : (accounts.filterMap Account.declaration?).any
              (Statement.sameField (st, type)) = s.entity.hasField st.name := hfield.symm
          rw [hsome, Option.filter_some, hsame]
          cases htaken : s.entity.hasField st.name with
          | true => exact .inl ⟨rfl, by simpa using .refl _⟩
          | false => exact .inr ⟨rfl, rfl, type, rfl, by simp⟩

end Assembly

namespace Entity

/-- What a blank entity has, what entities with the same fields share, and what is kept whenever an
attribute with a free name is added together with its field, an entity of statements has with the
fields that declare its attributes. -/
theorem ofStatements_induction {name : String} {P : Entity → List Statement → Prop}
    (hnil : P (ofName name) [])
    (hsame : ∀ {e e' : Entity} {fields}, SameFields e e' → P e fields → P e' fields)
    (hadd : ∀ {s : Assembly} {fields field type}, s.entity.name = name →
      s.entity.hasField field.name = false → NeutralType.ofName? field.typeName = some type →
      P s.entity fields → P (s.addAttribute field type).entity (fields ++ [field]))
    (statements : List Statement) :
    P (ofStatements name statements).1 (Statement.declaring statements) := by
  induction statements using List.reverseRecOn with
  | nil => exact hnil
  | append_singleton statements st ih =>
      obtain ⟨accounts, hstatements, hbalances⟩ := Assembly.exists_balances name statements
      have hlast : (ofStatements name (statements ++ [st])).1 =
          ((statements.foldl Assembly.addStatement (.ofName name)).addStatement st).entity := by
        rw [ofStatements, List.foldl_append]
        rfl
      have hcases := Assembly.addStatement_cases hbalances st
      rw [hbalances.areExact.declarations, hstatements] at hcases
      rw [hlast, Statement.declaring_concat]
      rcases hcases with ⟨hnone, hkept⟩ | ⟨hsome, hfree, type, htype, hstep⟩
      · rw [hnone, Option.toList_none, List.append_nil]
        exact hsame hkept ih
      · rw [hsome, Option.toList_some, hstep]
        exact hadd hbalances.name_entity hfree htype ih

theorem merges_ofStatements (name : String) (statements : List Statement) :
    (ofStatements name statements).1.Merges
      ((Statement.declaring statements).filterMap (Statement.column? name)) := by
  apply ofStatements_induction
    (P := fun e fields => e.Merges (fields.filterMap (Statement.column? name)))
  · exact merges_ofName name
  · intro e e' fields hsame h
    exact h.of_foreignKeys_eq hsame.foreignKeys
  · rintro s fields field type rfl - - h
    exact Assembly.merges_addAttribute_concat h field type

end Entity

section Tables

variable [Naming] (t : Table)

def Table.bindingsOf (key : TableKey) : List Binding :=
  (key.columnPairs.filter fun pair =>
    (t.columns.map fun c => attributeNameOf c.name).contains (attributeNameOf pair.1)).map
      fun pair => ⟨attributeNameOf pair.1, some (attributeNameOf pair.2)⟩

def TableKey.ends (key : TableKey) : String × String :=
  (key.name, entityNameOf key.referencedTable)

def Table.keyColumns : List KeyColumn :=
  t.foreignKeys.flatMap fun key => (t.bindingsOf key).map fun b => ⟨key.ends, b⟩

def Table.binds (key : TableKey) : Bool := !(t.bindingsOf key).isEmpty

def Table.foreignKeyOf (key : TableKey) : ForeignKey :=
  ⟨key.name, entityNameOf t.name, entityNameOf key.referencedTable, t.bindingsOf key, []⟩

namespace Entity

variable {t} {s : Entity × Diagnostics}

structure HasColumns (e : Entity) (name : String) (columns : List Column)
    (keys : List ForeignKey) : Prop where
  name_eq : e.name = name
  mem_names_iff : ∀ field, field ∈ e.attributes.map Attribute.name ↔
    field ∈ columns.map fun c => attributeNameOf c.name
  foreignKeys_eq : e.foreignKeys = keys

theorem HasColumns.addColumn {name : String} {columns : List Column} {keys : List ForeignKey}
    (h : s.1.HasColumns name columns keys) (c : Column) :
    (addColumn s c).1.HasColumns name (columns ++ [c]) keys := by
  obtain ⟨e, ds⟩ := s
  simp only [Entity.addColumn]
  split
  · rename_i htaken
    have hold := (h.mem_names_iff _).1 (attribute?_isSome_iff.1 htaken)
    refine ⟨h.name_eq, fun field => ?_, h.foreignKeys_eq⟩
    rw [h.mem_names_iff, List.map_append, List.map_singleton, List.mem_append, List.mem_singleton]
    constructor
    · exact .inl
    · rintro (hfield | rfl)
      · exact hfield
      · exact hold
  · refine ⟨h.name_eq, fun field => ?_, h.foreignKeys_eq⟩
    rw [Entity.addAttribute, List.map_append, List.map_append, List.mem_append, List.mem_append,
      h.mem_names_iff]
    rfl

theorem HasColumns.foldl_addColumn {name : String} {columns : List Column}
    {keys : List ForeignKey} (h : s.1.HasColumns name columns keys) (more : List Column) :
    (more.foldl Entity.addColumn s).1.HasColumns name (columns ++ more) keys := by
  induction more generalizing s columns with
  | nil => simpa using h
  | cons c more ih => simpa using ih (h.addColumn c)

theorem HasColumns.addTableKey {keys : List ForeignKey}
    (h : s.1.HasColumns (entityNameOf t.name) t.columns keys) (key : TableKey) :
    (addTableKey s key).1.HasColumns (entityNameOf t.name) t.columns
      (keys ++ if t.binds key then [t.foreignKeyOf key] else []) := by
  obtain ⟨e, ds⟩ := s
  have hknown (pair : String × String) : (e.attribute? (attributeNameOf pair.1)).isSome =
      (t.columns.map fun c => attributeNameOf c.name).contains (attributeNameOf pair.1) := by
    rw [Bool.eq_iff_iff, attribute?_isSome_iff, h.mem_names_iff, List.contains_iff_mem]
  have hname : e.name = entityNameOf t.name := h.name_eq
  simp only [Entity.addTableKey, hknown, hname]
  refine ⟨rfl, fun field => ?_, ?_⟩
  · rw [names_foldl_markForeignKey]
    exact h.mem_names_iff field
  · change e.foreignKeys ++ (if (t.bindingsOf key).isEmpty then [] else _) = _
    rw [h.foreignKeys_eq, Table.binds]
    cases (t.bindingsOf key).isEmpty <;> rfl

theorem HasColumns.foldl_addTableKey {keys : List ForeignKey}
    (h : s.1.HasColumns (entityNameOf t.name) t.columns keys) (more : List TableKey) :
    (more.foldl Entity.addTableKey s).1.HasColumns (entityNameOf t.name) t.columns
      (keys ++ (more.filter t.binds).map t.foreignKeyOf) := by
  induction more generalizing s keys with
  | nil => simpa using h
  | cons key more ih =>
      have hrest := ih (h.addTableKey key)
      rw [List.foldl_cons, List.filter_cons]
      cases hkey : t.binds key <;> simpa [hkey] using hrest

theorem hasColumns_ofTable (t : Table) :
    (ofTable t).1.HasColumns (entityNameOf t.name) t.columns
      ((t.foreignKeys.filter t.binds).map t.foreignKeyOf) := by
  have hstart : ({ ofName (entityNameOf t.name) with table? := some t.name } : Entity).HasColumns
      (entityNameOf t.name) [] [] := ⟨rfl, by simp [ofName], rfl⟩
  have hcolumns := HasColumns.foldl_addColumn (s := (_, [])) hstart t.columns
  exact hcolumns.foldl_addTableKey t.foreignKeys

/-- Each key of the table with a column of it becomes a foreign key of its own. -/
theorem foreignKeys_ofTable (t : Table) :
    (ofTable t).1.foreignKeys = (t.foreignKeys.filter t.binds).map t.foreignKeyOf :=
  (hasColumns_ofTable t).foreignKeys_eq

theorem keyEnds_ofTable (t : Table) :
    (ofTable t).1.keyEnds = (t.foreignKeys.filter t.binds).map TableKey.ends := by
  rw [keyEnds, foreignKeys_ofTable, List.map_map]
  rfl

theorem keyColumns_eq (t : Table) :
    t.keyColumns = (t.foreignKeys.filter t.binds).flatMap fun key =>
      (t.bindingsOf key).map fun b => ⟨key.ends, b⟩ := by
  rw [Table.keyColumns]
  induction t.foreignKeys with
  | nil => rfl
  | cons key keys ih =>
      rw [List.flatMap_cons, List.filter_cons, ih, Table.binds]
      cases hbindings : t.bindingsOf key <;> simp [hbindings]

theorem merges_ofTable (t : Table) (h : (ofTable t).1.keyEnds.Nodup) :
    (ofTable t).1.Merges t.keyColumns := by
  rw [keyEnds_ofTable] at h
  have hbound : ∀ key ∈ t.foreignKeys.filter t.binds, t.bindingsOf key ≠ [] := by
    intro key hkey
    simpa [Table.binds] using (List.mem_filter.1 hkey).2
  refine ⟨?_, fun fk hfk => ?_⟩
  · rw [keyEnds_ofTable, keyColumns_eq, KeyColumn.ends_flatMap,
      KeyColumn.eraseDups_ends_flatMap h hbound]
  · rw [foreignKeys_ofTable] at hfk
    obtain ⟨key, hkey, rfl⟩ := List.mem_map.1 hfk
    have hbindings := KeyColumn.bindingsOn_flatMap t.bindingsOf h hkey
    rw [← keyColumns_eq] at hbindings
    exact hbindings.symm

/-- The foreign keys of statements are merged, whatever the statements are, and so no two of them
have the same name and target. Those of a table are merged if and only if the keys of the table that
have a column of it differ in name or target. -/
theorem merges_ofStatements_ofTable (name : String) (statements : List Statement) (t : Table) :
    ((ofStatements name statements).1.Merges
          ((Statement.declaring statements).filterMap (Statement.column? name)) ∧
        (ofStatements name statements).1.keyEnds.Nodup) ∧
      (ofTable t).1.keyEnds = (t.foreignKeys.filter t.binds).map TableKey.ends ∧
      ((ofTable t).1.Merges t.keyColumns ↔
        ((t.foreignKeys.filter t.binds).map TableKey.ends).Nodup) := by
  have hstatements := merges_ofStatements name statements
  have hends := keyEnds_ofTable t
  refine ⟨⟨hstatements, hstatements.nodup_keyEnds⟩, hends, fun h => ?_, fun h => ?_⟩
  · rw [← hends]
    exact h.nodup_keyEnds
  · exact merges_ofTable t (hends ▸ h)

end Entity

end Tables

namespace Entity

def splitKeyTable : Table :=
  ⟨"T", [Column.ofType "a" 4, Column.ofType "b" 4],
    [⟨"FK", "P", [("a", "x")]⟩, ⟨"FK", "P", [("b", "y")]⟩]⟩

theorem not_nodup_keyEnds_ofTable :
    ¬ ((∀ name statements, (ofStatements name statements).1.keyEnds.Nodup) ∧
      ∀ t, (ofTable t).1.keyEnds.Nodup) := by
  intro h
  have hends : (ofTable splitKeyTable).1.keyEnds = [("FK", "P"), ("FK", "P")] := by
    decide +kernel
  have hnodup := h.2 splitKeyTable
  rw [hends] at hnodup
  exact absurd hnodup (by decide)

end Entity

end EntityModel
