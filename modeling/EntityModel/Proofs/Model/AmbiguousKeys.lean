import EntityModel.Proofs.Model.KeyNames

/-!
# Reports of ambiguous key names

Each pair of columns of a foreign key is an occurrence of the name of the key. It is reported if
and only if another occurrence of the name lies elsewhere: between other entities. The reports come
name by name, and for each name in the order of the model.
-/

namespace EntityModel

/-- A pair of columns of a foreign key, with the entity that declares the key. -/
structure BoundColumn where
  entity : Entity
  key : ForeignKey
  binding : Binding

namespace BoundColumn

def ends (c : BoundColumn) : String × String := (c.entity.name, c.key.referenced)

def report (c : BoundColumn) : Diagnostic :=
  ⟨c.entity.name, some c.binding.origin,
    (c.entity.attribute? c.binding.origin).bind Attribute.line?,
    .ambiguousKeyName c.key.name c.key.referenced⟩

def occurrence (c : BoundColumn) : KeyOccurrence :=
  ⟨c.key.name, c.entity.name, c.key.referenced, c.binding.origin,
    (c.entity.attribute? c.binding.origin).bind Attribute.line?⟩

end BoundColumn

namespace Model

def boundColumns (m : Model) : List BoundColumn :=
  m.toList.flatMap fun e => e.foreignKeys.flatMap fun fk => fk.bindings.map fun b => ⟨e, fk, b⟩

theorem keyOccurrences_eq (m : Model) :
    m.keyOccurrences = m.boundColumns.map BoundColumn.occurrence := by
  simp only [keyOccurrences, boundColumns, List.map_flatMap, List.map_map]
  rfl

def isAmbiguousColumn (m : Model) (c : BoundColumn) : Bool :=
  c.occurrence.IsAmbiguousIn m.keyOccurrences

theorem isAmbiguousColumn_iff {m : Model} {c : BoundColumn} :
    m.isAmbiguousColumn c = true ↔
      ∃ j : Fin m.boundColumns.length,
        m.boundColumns[j].key.name = c.key.name ∧ m.boundColumns[j].ends ≠ c.ends := by
  rw [isAmbiguousColumn, decide_eq_true_eq, KeyOccurrence.IsAmbiguousIn, keyOccurrences_eq]
  constructor
  · rintro ⟨_, ho, h⟩
    obtain ⟨c', hc', rfl⟩ := List.mem_map.1 ho
    obtain ⟨j, hj, rfl⟩ := List.getElem_of_mem hc'
    exact ⟨⟨j, hj⟩, h⟩
  · rintro ⟨j, h⟩
    exact ⟨_, List.mem_map_of_mem (List.getElem_mem j.isLt), h⟩

theorem checkKeyNames_eq_map_groupedPlaces (m : Model) :
    m.checkKeyNames = (groupedPlaces (fun c => c.key.name) m.isAmbiguousColumn m.boundColumns).map
      fun i => m.boundColumns[i].report := by
  have hnames : m.keyOccurrences.map KeyOccurrence.keyName =
      m.boundColumns.map fun c => c.key.name := by
    rw [keyOccurrences_eq, List.map_map]
    rfl
  have hfilter (p : KeyOccurrence → Bool) : m.keyOccurrences.filter p =
      (m.boundColumns.filter (p ∘ BoundColumn.occurrence)).map BoundColumn.occurrence := by
    rw [keyOccurrences_eq, List.filter_map]
  have hgroup (name : String) :
      KeyOccurrence.ofName (m.keyOccurrences.filter fun o => o.IsAmbiguousIn m.keyOccurrences) name =
        ((m.boundColumns.filter m.isAmbiguousColumn).filter fun c => c.key.name == name).map
          BoundColumn.occurrence := by
    rw [hfilter, KeyOccurrence.ofName, List.filter_map]
    rfl
  rw [checkKeyNames_eq, hnames, funext hgroup, ← List.map_flatMap, ← map_getElem_groupedPlaces,
    List.map_map, List.map_map]
  rfl

/-- An occurrence is reported if and only if another one of the same name has other ends; each is
reported once, those of one name together or not at all. The names come in the order in which they
first appear, and their occurrences in the order of the model. -/
theorem checkKeyNames_eq_map_report (m : Model) :
    let name (i : Fin m.boundColumns.length) := m.boundColumns[i].key.name
    let firstPlace (i : Fin m.boundColumns.length) :=
      (m.boundColumns.map fun c => c.key.name).idxOf (name i)
    ∃ places : List (Fin m.boundColumns.length),
      m.checkKeyNames = places.map (fun i => m.boundColumns[i].report) ∧
      (∀ i, i ∈ places ↔
        ∃ j, name j = name i ∧ m.boundColumns[j].ends ≠ m.boundColumns[i].ends) ∧
      (∀ i j, name i = name j → (i ∈ places ↔ j ∈ places)) ∧
      places.Nodup ∧
      places.Pairwise fun i j => firstPlace i < firstPlace j ∨ name i = name j ∧ i < j := by
  intro name firstPlace
  have hmem (i : Fin m.boundColumns.length) :
      i ∈ groupedPlaces (fun c => c.key.name) m.isAmbiguousColumn m.boundColumns ↔
        ∃ j, name j = name i ∧ m.boundColumns[j].ends ≠ m.boundColumns[i].ends :=
    mem_groupedPlaces_iff.trans isAmbiguousColumn_iff
  have hsame {i j : Fin m.boundColumns.length} (hname : name i = name j)
      (hi : ∃ k, name k = name i ∧ m.boundColumns[k].ends ≠ m.boundColumns[i].ends) :
      ∃ k, name k = name j ∧ m.boundColumns[k].ends ≠ m.boundColumns[j].ends := by
    obtain ⟨k, hk, hne⟩ := hi
    by_cases heq : m.boundColumns[i].ends = m.boundColumns[j].ends
    · exact ⟨k, hk.trans hname, heq ▸ hne⟩
    · exact ⟨i, hname, heq⟩
  have hpairwise := pairwise_groupedPlaces (fun c => c.key.name) m.isAmbiguousColumn m.boundColumns
  refine ⟨_, m.checkKeyNames_eq_map_groupedPlaces, hmem, fun i j hname => ?_, ?_, hpairwise⟩
  · rw [hmem, hmem]
    exact ⟨hsame hname, hsame hname.symm⟩
  · refine hpairwise.imp fun {i j} hij heq => ?_
    subst heq
    omega

end Model

end EntityModel
