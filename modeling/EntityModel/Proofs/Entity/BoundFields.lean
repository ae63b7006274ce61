import EntityModel.Proofs.Entity.Accounting
import EntityModel.Proofs.Entity.OfTable
import EntityModel.Proofs.Grouping

/-!
# Attributes bound by foreign keys

An attribute is marked where a column of a foreign key is declared on it, and the column is stored
with the key. The marks and the columns agree, whether an entity comes from statements or from a
table.
-/

namespace EntityModel

namespace Entity

def boundFields (e : Entity) : List String :=
  e.foreignKeys.flatMap fun fk => fk.bindings.map Binding.origin

/-- An attribute is marked if and only if a column stands on it, and every key has a column, stands
on attributes of its entity and knows the entity. -/
structure KeysAgree (e : Entity) : Prop where
  marked_iff : ∀ a ∈ e.attributes, a.isForeignKey = true ↔ a.name ∈ e.boundFields
  bound : e.boundFields ⊆ e.attributes.map Attribute.name
  bindings_ne_nil : ∀ fk ∈ e.foreignKeys, fk.bindings ≠ []
  origin_eq : ∀ fk ∈ e.foreignKeys, fk.origin = e.name

theorem mem_boundFields_iff {e : Entity} {field : String} :
    field ∈ e.boundFields ↔ ∃ fk ∈ e.foreignKeys, ∃ b ∈ fk.bindings, b.origin = field := by
  simp only [boundFields, List.mem_flatMap, List.mem_map]

theorem IsBuilt.boundFields_subset {e : Entity} (h : e.IsBuilt) :
    e.boundFields ⊆ e.attributes.map Attribute.name := by
  intro field hfield
  obtain ⟨fk, hfk, b, hb, rfl⟩ := mem_boundFields_iff.1 hfield
  exact (h.keys fk hfk).origins b hb

end Entity

namespace Account

variable {name : String} {a : Account}

theorem map_origin_key? (name : String) (a : Account) :
    ((a.key? name).map fun key => key.2.origin) =
      ((a.attribute? name).filter Attribute.isForeignKey).map Attribute.name := by
  obtain ⟨statement, verdict⟩ := a
  cases verdict with
  | skipped => rfl
  | spread => rfl
  | declared type annotations tags =>
      have hname : ((statement.plainAttribute type).applyAll
          (annotations.filterMap Fate.applied?)).name = statement.name :=
        (Attribute.applyAll_frame ..).1
      cases hkey : key? name ⟨statement, .declared type annotations tags⟩ with
      | none => simp [attribute?, hkey, Option.filter]
      | some key =>
          have horigin : key.2.origin = statement.name := by
            simp only [key?, Option.map_eq_some_iff] at hkey
            obtain ⟨target, -, rfl⟩ := hkey
            rfl
          simp [attribute?, hkey, hname, horigin, Option.filter]

end Account

namespace Entity

variable {name : String} {accounts : List Account}

theorem bindings_keyOf (name : String) (accounts : List Account) (ends : String × String) :
    (keyOf name accounts ends).bindings =
      ((accounts.filterMap (Account.key? name)).filter fun key => key.1 == ends).map Prod.snd := by
  have hbindings : (keyOf name accounts ends).bindings =
      (accounts.filterMap (Account.key? name)).filterMap fun key =>
        if key.1 = ends then some key.2 else none := by
    rw [List.filterMap_filterMap]
    rfl
  rw [hbindings]
  induction accounts.filterMap (Account.key? name) with
  | nil => rfl
  | cons key keys ih => by_cases hends : key.1 = ends <;> simp [hends, ih]

theorem exists_account_of_mem_bindings {fk : ForeignKey} (hfk : fk ∈ keysOf name accounts)
    {b : Binding} (hb : b ∈ fk.bindings) :
    ∃ a ∈ accounts, a.key? name = some ((fk.name, fk.referenced), b) := by
  obtain ⟨ends, -, rfl⟩ := List.mem_map.1 hfk
  rw [bindings_keyOf] at hb
  obtain ⟨key, hkey, rfl⟩ := List.mem_map.1 hb
  obtain ⟨hkey, hends⟩ := List.mem_filter.1 hkey
  obtain ⟨a, ha, heq⟩ := List.mem_filterMap.1 hkey
  obtain rfl := beq_iff_eq.1 hends
  exact ⟨a, ha, heq⟩

/-- The marked attributes are those that the columns stand on, each as often. -/
theorem boundFields_ofAccounts_perm (name : String) (accounts : List Account) :
    (ofAccounts name accounts).boundFields.Perm
      (((ofAccounts name accounts).attributes.filter Attribute.isForeignKey).map
        Attribute.name) := by
  have hends : keyEndsOf name accounts =
      ((accounts.filterMap (Account.key? name)).map Prod.fst).eraseDups := by
    rw [keyEndsOf, List.map_filterMap]
    rfl
  have hbound : (ofAccounts name accounts).boundFields =
      (((accounts.filterMap (Account.key? name)).map Prod.fst).eraseDups.flatMap fun ends =>
        (accounts.filterMap (Account.key? name)).filter fun key => key.1 == ends).map
          fun key => key.2.origin := by
    have hkeys : (ofAccounts name accounts).foreignKeys =
        (keyEndsOf name accounts).map (keyOf name accounts) := rfl
    rw [boundFields, hkeys, List.flatMap_map, hends, List.map_flatMap]
    refine List.flatMap_congr fun ends _ => ?_
    rw [bindings_keyOf, List.map_map]
    rfl
  have hmarked : (((ofAccounts name accounts).attributes.filter Attribute.isForeignKey).map
      Attribute.name) = (accounts.filterMap (Account.key? name)).map fun key => key.2.origin := by
    have hattributes : (ofAccounts name accounts).attributes =
        accounts.filterMap (Account.attribute? name) := rfl
    rw [hattributes, List.filter_filterMap, List.map_filterMap, List.map_filterMap]
    exact List.filterMap_congr fun a _ => (a.map_origin_key? name).symm
  rw [hbound, hmarked]
  exact (groups_perm Prod.fst _).map _

theorem keysAgree_ofStatements (name : String) (statements : List Statement) :
    (ofStatements name statements).1.KeysAgree ∧
      (ofStatements name statements).1.boundFields.Nodup := by
  obtain ⟨hstated, hname⟩ := isStated_ofStatements name statements
  obtain ⟨accounts, -, haccounts⟩ := Assembly.exists_balances name statements
  have hentity : (ofStatements name statements).1 = ofAccounts name accounts := haccounts.entity
  have hperm := boundFields_ofAccounts_perm name accounts
  have horigin : ∀ fk ∈ (ofAccounts name accounts).foreignKeys, fk.origin = name := by
    intro fk hfk
    obtain ⟨ends, -, rfl⟩ := List.mem_map.1 hfk
    rfl
  rw [← hentity] at hperm horigin
  generalize (ofStatements name statements).1 = e at hstated hname hperm horigin ⊢
  refine ⟨⟨fun a ha => ?_, hstated.boundFields_subset, ?_, ?_⟩, ?_⟩
  · rw [hperm.mem_iff]
    constructor
    · intro hmark
      exact List.mem_map_of_mem (List.mem_filter.2 ⟨ha, hmark⟩)
    · intro hmem
      obtain ⟨a', ha', hname'⟩ := List.mem_map.1 hmem
      obtain ⟨ha', hmark⟩ := List.mem_filter.1 ha'
      -- names are distinct, so the attribute found is the one in question
      rwa [List.inj_on_of_nodup_map hstated.nodup_names ha' ha hname'] at hmark
  · exact fun fk hfk => (hstated.keys fk hfk).bindings_ne_nil
  · intro fk hfk
    rw [horigin fk hfk, hname]
  · rw [hperm.nodup_iff]
    exact hstated.nodup_names.sublist (List.filter_sublist.map Attribute.name)

end Entity

namespace Entity

theorem exists_of_mem_markForeignKey {name : String} {attributes : List Attribute}
    (h : (attributes.map Attribute.name).Nodup) {a' : Attribute}
    (ha' : a' ∈ markForeignKey name attributes) :
    ∃ a ∈ attributes, a'.name = a.name ∧
      (a'.isForeignKey = true ↔ a.isForeignKey = true ∨ a.name = name) := by
  induction attributes with
  | nil => cases ha'
  | cons first rest ih =>
      rw [List.map_cons, List.nodup_cons] at h
      rw [markForeignKey] at ha'
      by_cases hfirst : first.name = name
      · rw [if_pos hfirst] at ha'
        rcases List.mem_cons.1 ha' with rfl | hrest
        · exact ⟨first, List.mem_cons_self .., rfl, by simp [hfirst]⟩
        · have hne : a'.name ≠ name := by
            intro hname
            rw [hfirst, ← hname] at h
            exact h.1 (List.mem_map_of_mem hrest)
          exact ⟨a', List.mem_cons_of_mem _ hrest, rfl, by simp [hne]⟩
      · rw [if_neg hfirst] at ha'
        rcases List.mem_cons.1 ha' with rfl | hrest
        · exact ⟨a', List.mem_cons_self .., rfl, by simp [hfirst]⟩
        · obtain ⟨a, ha, hmark⟩ := ih h.2 hrest
          exact ⟨a, List.mem_cons_of_mem _ ha, hmark⟩

theorem exists_of_mem_foldl_markForeignKey {bindings : List Binding} {attributes : List Attribute}
    (h : (attributes.map Attribute.name).Nodup) {a' : Attribute}
    (ha' : a' ∈ bindings.foldl (fun as b => markForeignKey b.origin as) attributes) :
    ∃ a ∈ attributes, a'.name = a.name ∧
      (a'.isForeignKey = true ↔ a.isForeignKey = true ∨ a.name ∈ bindings.map Binding.origin) := by
  induction bindings generalizing attributes with
  | nil => exact ⟨a', ha', rfl, by simp⟩
  | cons b bindings ih =>
      have hnames := names_markForeignKey b.origin attributes
      obtain ⟨a₁, ha₁, hname₁, hmark₁⟩ := ih (hnames ▸ h) ha'
      obtain ⟨a, ha, hname, hmark⟩ := exists_of_mem_markForeignKey h ha₁
      refine ⟨a, ha, hname₁.trans hname, ?_⟩
      rw [hmark₁, hmark, hname, List.map_cons, List.mem_cons, or_assoc]

variable [Naming] {s : Entity × Diagnostics}

theorem KeysAgree.addColumn (hs : s.1.KeysAgree) (c : Column) : (addColumn s c).1.KeysAgree := by
  obtain ⟨e, ds⟩ := s
  simp only [Entity.addColumn]
  split
  · exact hs
  · rename_i hfree
    have hnew : c.toAttribute.name ∉ e.boundFields := fun hmem =>
      hfree (attribute?_isSome_iff.2 (hs.bound hmem))
    refine ⟨fun a ha => ?_, ?_, hs.bindings_ne_nil, hs.origin_eq⟩
    · rw [Entity.addAttribute, List.mem_append, List.mem_singleton] at ha
      rcases ha with hold | rfl
      · exact hs.marked_iff a hold
      · exact ⟨fun hmark => (Bool.false_ne_true hmark).elim, fun hmem => absurd hmem hnew⟩
    · rw [Entity.addAttribute, List.map_append]
      exact fun field hfield => List.mem_append_left _ (hs.bound hfield)

theorem KeysAgree.addTableKey (hs : s.1.KeysAgree) (hbuilt : s.1.IsBuilt) (key : TableKey) :
    (addTableKey s key).1.KeysAgree := by
  have hbuilt' := isBuilt_addTableKey hbuilt key
  obtain ⟨e, ds⟩ := s
  simp only [Entity.addTableKey] at hbuilt' ⊢
  generalize hbindings : (key.columnPairs.filter fun pair =>
      (e.attribute? (attributeNameOf pair.1)).isSome).map (fun pair =>
        (⟨attributeNameOf pair.1, some (attributeNameOf pair.2)⟩ : Binding)) = bindings at hbuilt' ⊢
  refine ⟨fun a' ha' => ?_, hbuilt'.boundFields_subset,
    fun fk hfk => (hbuilt'.keys fk hfk).bindings_ne_nil, fun fk hfk => ?_⟩
  · obtain ⟨a, ha, hname, hmark⟩ := exists_of_mem_foldl_markForeignKey hbuilt.nodup_names ha'
    have hold := hs.marked_iff a ha
    rw [hmark, hold, hname, boundFields, boundFields, List.flatMap_append, List.mem_append]
    cases bindings <;> simp
  · rcases List.mem_append.1 hfk with hold | hnew
    · exact hs.origin_eq fk hold
    · split at hnew
      · cases hnew
      · rw [List.mem_singleton.1 hnew]

theorem keysAgree_ofTable (t : Table) : (ofTable t).1.KeysAgree := by
  let start : Entity × Diagnostics :=
    ({ ofName (entityNameOf t.name) with table? := some t.name }, [])
  have hstart : start.1.IsBuilt ∧ start.1.KeysAgree :=
    ⟨⟨.nil, rfl, by simp [start, ofName]⟩, by simp [start, ofName],
      by simp [start, ofName, boundFields], by simp [start, ofName], by simp [start, ofName]⟩
  have hcolumns := List.foldlRecOn t.columns addColumn
    (motive := fun s => s.1.IsBuilt ∧ s.1.KeysAgree) hstart
    fun s hs c _ => ⟨isBuilt_addColumn hs.1 c, hs.2.addColumn c⟩
  have hkeys := List.foldlRecOn t.foreignKeys addTableKey
    (motive := fun s => s.1.IsBuilt ∧ s.1.KeysAgree) hcolumns
    fun s hs key _ => ⟨isBuilt_addTableKey hs.1 key, hs.2.addTableKey hs.1 key⟩
  exact hkeys.2

end Entity

end EntityModel
