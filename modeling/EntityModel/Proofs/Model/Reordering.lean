import EntityModel.Proofs.Model.Completion
import EntityModel.Proofs.Model.KeyNames
import EntityModel.Proofs.Model.Linking

/-!
# Models in another order

The order of the entities of a model decides the order of what is reported and of the links that
are added, and with it the numbers in the names of links. Nothing else depends on it.
-/

namespace EntityModel

/-- The same entity, apart from the order of its links and the names of their fields. -/
structure Entity.AgreesUpToLinkFields (e e' : Entity) : Prop where
  rest : { e' with links := e.links } = e
  links : (e.links.map Link.anonymous).Perm (e'.links.map Link.anonymous)

namespace Model

variable {m m' : Model}

/-- The same entities apart from the names of link fields, in orders that may differ. -/
structure IsReordering (m m' : Model) : Prop where
  names : m.names.Perm m'.names
  entities : ∀ name e, m.entity? name = some e →
    ∃ e', m'.entity? name = some e' ∧ e.AgreesUpToLinkFields e'

theorem toList_eq_filterMap (m : Model) : m.toList = m.names.filterMap m.entity? := by
  rw [toList, names, OrderedMap.values, OrderedMap.keys, List.filterMap_map, ← List.filterMap_eq_map]
  refine List.filterMap_congr fun entry hentry => ?_
  exact (OrderedMap.find?_eq_some_iff.2 hentry).symm

theorem IsKeyedByName.toList_eq_map (hm : m.IsKeyedByName) {f : String → Entity → Entity}
    (hnames : m'.names = m.names)
    (hentity : ∀ name, m'.entity? name = (m.entity? name).map (f name)) :
    m'.toList = m.toList.map fun e => f e.name e := by
  rw [toList_eq_filterMap, toList_eq_filterMap m, hnames, List.map_filterMap]
  refine List.filterMap_congr fun name _ => ?_
  rw [hentity]
  cases he : m.entity? name with
  | none => rfl
  | some e => rw [Option.map_some, Option.map_some, isKeyedByName_iff.1 hm name e he]

theorem IsKeyedByName.toList_resolveLinks [Naming] (hm : m.IsKeyedByName)
    (directions : LinkDirections) (suffix : String) :
    (m.resolveLinks directions suffix).1.toList =
      m.toList.map fun e => e.addAllNamed (m.linksDue directions suffix e.name) :=
  hm.toList_eq_map (names_resolveLinks m directions suffix)
    (entity?_resolveLinks m directions suffix)

theorem IsKeyedByName.keyOccurrences_resolveLinks [Naming] (hm : m.IsKeyedByName)
    (directions : LinkDirections) (suffix : String) :
    (m.resolveLinks directions suffix).1.keyOccurrences = m.keyOccurrences := by
  rw [keyOccurrences, hm.toList_resolveLinks, List.flatMap_map, keyOccurrences]
  simp only [Entity.addAllNamed_eq, Entity.attribute?]

structure HasSameEntities (m m' : Model) : Prop where
  keyed : m.IsKeyedByName
  keyed' : m'.IsKeyedByName
  perm : m.toList.Perm m'.toList

namespace HasSameEntities

theorem names_perm (h : m.HasSameEntities m') : m.names.Perm m'.names := by
  rw [← h.keyed.map_name_toList, ← h.keyed'.map_name_toList]
  exact h.perm.map _

theorem entity?_eq (h : m.HasSameEntities m') (name : String) :
    m.entity? name = m'.entity? name := by
  ext e
  rw [h.keyed.entity?_eq_some_iff, h.keyed'.entity?_eq_some_iff, h.perm.mem_iff]

theorem contains_eq (h : m.HasSameEntities m') (name : String) :
    m.contains name = m'.contains name := by
  rw [contains_eq_isSome, contains_eq_isSome, h.entity?_eq]

theorem completeIn_eq (h : m.HasSameEntities m') (fk : ForeignKey) :
    fk.completeIn m = fk.completeIn m' := by
  rw [ForeignKey.completeIn, ForeignKey.completeIn, h.entity?_eq]

theorem complete (h : m.HasSameEntities m') : m.complete.1.HasSameEntities m'.complete.1 := by
  refine ⟨h.keyed.complete, h.keyed'.complete, ?_⟩
  have hentity : m.completeEntity = m'.completeEntity := by
    funext e
    simp only [completeEntity, h.completeIn_eq]
  rw [toList_complete, toList_complete, hentity]
  exact h.perm.map _

theorem completionProblems_perm (h : m.HasSameEntities m') :
    m.complete.2.Perm m'.complete.2 := by
  have hproblems : m.completionProblems = m'.completionProblems := by
    funext e
    simp only [completionProblems, h.completeIn_eq]
  rw [Model.complete, Model.complete, hproblems]
  exact h.perm.flatMap_right _

section Links

variable [Naming] (directions : LinkDirections) (suffix : String)

theorem linksDue_perm (h : m.HasSameEntities m') (owner : String) :
    (m.linksDue directions suffix owner).Perm (m'.linksDue directions suffix owner) := by
  have hfrom : m.linksFrom directions suffix owner = m'.linksFrom directions suffix owner := by
    funext e
    have hjoined : m.IsJoined directions e ↔ m'.IsJoined directions e := by
      simp only [IsJoined, h.contains_eq]
    simp only [linksFrom, hjoined, h.contains_eq]
  rw [linksDue, linksDue, hfrom]
  exact h.perm.flatMap_right _

theorem danglingKeys_perm (h : m.HasSameEntities m') :
    (m.resolveLinks directions suffix).2.Perm (m'.resolveLinks directions suffix).2 := by
  have hdangling : m.danglingKeys = m'.danglingKeys := by
    funext e
    simp only [danglingKeys, h.contains_eq]
  rw [resolveLinks, resolveLinks, hdangling]
  exact h.perm.flatMap_right _

/-- An entity gets the same links in either order, but they may take the free names in another. -/
theorem isReordering_resolveLinks (h : m.HasSameEntities m') :
    (m.resolveLinks directions suffix).1.IsReordering (m'.resolveLinks directions suffix).1 := by
  refine ⟨?_, fun name e he => ?_⟩
  · rw [names_resolveLinks, names_resolveLinks]
    exact h.names_perm
  · rw [entity?_resolveLinks, Option.map_eq_some_iff] at he
    obtain ⟨e₀, he₀, rfl⟩ := he
    refine ⟨e₀.addAllNamed (m'.linksDue directions suffix name), ?_, ?_, ?_⟩
    · rw [entity?_resolveLinks, ← h.entity?_eq, he₀, Option.map_some]
    · rw [Entity.addAllNamed_eq, Entity.addAllNamed_eq]
    · rw [Entity.addAllNamed_eq, Entity.addAllNamed_eq, List.map_append, List.map_append,
        Entity.anonymous_named, Entity.anonymous_named]
      exact ((h.linksDue_perm directions suffix name).map _).append_left _

end Links

theorem checkKeyNames_perm [Naming] (h : m.HasSameEntities m') (directions : LinkDirections)
    (suffix : String) :
    (m.resolveLinks directions suffix).1.checkKeyNames.Perm
      (m'.resolveLinks directions suffix).1.checkKeyNames := by
  have hoccurrences : (m.resolveLinks directions suffix).1.keyOccurrences.Perm
      (m'.resolveLinks directions suffix).1.keyOccurrences := by
    rw [h.keyed.keyOccurrences_resolveLinks, h.keyed'.keyOccurrences_resolveLinks]
    exact h.perm.flatMap_right _
  have hambiguous (o : KeyOccurrence) :
      o.IsAmbiguousIn (m.resolveLinks directions suffix).1.keyOccurrences ↔
        o.IsAmbiguousIn (m'.resolveLinks directions suffix).1.keyOccurrences := by
    simp only [KeyOccurrence.IsAmbiguousIn, hoccurrences.mem_iff]
  refine (Model.checkKeyNames_perm _).trans (.trans ?_ (Model.checkKeyNames_perm _).symm)
  simp only [hambiguous]
  exact (hoccurrences.filter _).map _

end HasSameEntities

end Model

end EntityModel
