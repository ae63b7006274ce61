import EntityModel.Model.Collection
import EntityModel.Proofs.Entity.Declaration

/-!
# Completed foreign keys

Completion fills in what bindings leave open and touches nothing else. Where it has no problem to
report, every binding stands for an attribute of the referenced entity.
-/

namespace EntityModel

theorem origin_complete (keyName target : String) (referenced : Entity) (position : Nat)
    (b : Binding) : (b.complete keyName target referenced position).1.origin = b.origin := by
  rw [Binding.complete]
  split <;> rfl

theorem origins_completeBindings (keyName target : String) (referenced : Entity) (position : Nat)
    (bindings : List Binding) :
    (completeBindings keyName target referenced position bindings).map (fun c => c.1.origin) =
      bindings.map Binding.origin := by
  induction bindings generalizing position with
  | nil => rfl
  | cons b bindings ih =>
      rw [completeBindings, List.map_cons, List.map_cons, ih, origin_complete]

theorem exists_attribute_of_complete {keyName target : String} {referenced : Entity}
    {position : Nat} {b : Binding}
    (h : (b.complete keyName target referenced position).2 = none) :
    ∃ a ∈ referenced.attributes,
      (b.complete keyName target referenced position).1.referenced? = some a.name := by
  rw [Binding.complete] at h ⊢
  split at h
  · rename_i name hname
    split at h
    · rename_i hfound
      obtain ⟨a, ha, rfl⟩ := List.mem_map.1 (Entity.attribute?_isSome_iff.1 hfound)
      exact ⟨a, ha, hname⟩
    · cases h
  · rename_i a hopen hkey
    have hmem : a ∈ referenced.keyAttributes := List.mem_of_getElem? hkey
    exact ⟨a, (List.mem_filter.1 hmem).1, rfl⟩
  · cases h

theorem exists_attribute_of_completeBindings {keyName target : String} {referenced : Entity}
    {position : Nat} {bindings : List Binding}
    (h : ∀ c ∈ completeBindings keyName target referenced position bindings, c.2 = none) :
    ∀ c ∈ completeBindings keyName target referenced position bindings,
      ∃ a ∈ referenced.attributes, c.1.referenced? = some a.name := by
  induction bindings generalizing position with
  | nil =>
      intro c hc
      cases hc
  | cons b bindings ih =>
      rw [completeBindings] at h ⊢
      intro c hc
      rcases List.mem_cons.1 hc with rfl | hrest
      · exact exists_attribute_of_complete (h _ (List.mem_cons_self ..))
      · exact ih (fun c hc => h c (List.mem_cons_of_mem _ hc)) c hrest

namespace ForeignKey

structure SameColumns (fk fk' : ForeignKey) : Prop where
  name : fk'.name = fk.name
  referenced : fk'.referenced = fk.referenced
  origins : fk'.bindings.map Binding.origin = fk.bindings.map Binding.origin

theorem sameColumns_completeIn (m : Model) (fk : ForeignKey) :
    SameColumns fk (fk.completeIn m).1 := by
  rw [completeIn]
  split
  · rename_i referenced _
    refine ⟨rfl, rfl, ?_⟩
    rw [complete, List.map_map]
    exact origins_completeBindings fk.name fk.referenced referenced 0 fk.bindings
  · exact ⟨rfl, rfl, rfl⟩

theorem origin_completeIn (m : Model) (fk : ForeignKey) :
    (fk.completeIn m).1.origin = fk.origin := by
  rw [completeIn]
  split <;> rfl

theorem SameColumns.bindings_ne_nil {fk fk' : ForeignKey} (h : SameColumns fk fk')
    (hne : fk.bindings ≠ []) : fk'.bindings ≠ [] := by
  intro hnil
  have horigins := h.origins
  rw [hnil, List.map_nil, eq_comm, List.map_eq_nil_iff] at horigins
  exact hne horigins

theorem SameColumns.keyIsBound {names : List String} {fk fk' : ForeignKey}
    (h : SameColumns fk fk') (hfk : Entity.KeyIsBound names fk) : Entity.KeyIsBound names fk' := by
  refine ⟨h.bindings_ne_nil hfk.bindings_ne_nil, fun b hb => ?_⟩
  have hmem : b.origin ∈ fk.bindings.map Binding.origin := by
    rw [← h.origins]
    exact List.mem_map_of_mem hb
  obtain ⟨b', hb', heq⟩ := List.mem_map.1 hmem
  rw [← heq]
  exact hfk.origins b' hb'

theorem complete_problems_eq_nil {fk : ForeignKey} {referenced : Entity}
    (h : (fk.complete referenced).2 = []) :
    (∀ c ∈ completeBindings fk.name fk.referenced referenced 0 fk.bindings, c.2 = none) ∧
      (fk.isImplicit = true → referenced.keyAttributes.length ≤ fk.bindings.length) := by
  rw [complete, List.append_eq_nil_iff, List.filterMap_eq_nil_iff] at h
  refine ⟨fun c hc => ?_, fun hopen => ?_⟩
  · have hproblem := h.1 c hc
    rw [Option.map_eq_none_iff] at hproblem
    exact hproblem
  · apply Nat.le_of_not_lt
    intro hshort
    have hfield := h.2
    simp only [hopen, hshort, decide_true, Bool.and_self, if_true, List.map_eq_nil_iff,
      Option.toList_eq_nil_iff, firstField?, Option.map_eq_none_iff, List.head?_eq_none_iff]
      at hfield
    rw [isImplicit, hfield] at hopen
    cases hopen

/-- A key without problems is complete: each binding names an attribute at the other end. -/
theorem exists_attribute_of_completeIn {m : Model} {fk : ForeignKey} {referenced : Entity}
    (hm : m.entity? fk.referenced = some referenced) (h : (fk.completeIn m).2 = []) :
    ∀ b ∈ (fk.completeIn m).1.bindings, ∃ a ∈ referenced.attributes,
      b.referenced? = some a.name := by
  simp only [completeIn, hm] at h ⊢
  intro b hb
  obtain ⟨c, hc, rfl⟩ := List.mem_map.1 hb
  exact exists_attribute_of_completeBindings (complete_problems_eq_nil h).1 c hc

end ForeignKey

namespace Model

variable {m : Model} {e : Entity}

theorem entity?_complete (m : Model) (name : String) :
    m.complete.1.entity? name = (m.entity? name).map m.completeEntity :=
  OrderedMap.find?_mapValues m.entities (fun _ e => m.completeEntity e) name

theorem contains_complete (m : Model) (name : String) :
    m.complete.1.contains name = m.contains name := by
  rw [contains_eq_isSome, entity?_complete, Option.isSome_map, contains_eq_isSome]

theorem toList_complete (m : Model) : m.complete.1.toList = m.toList.map m.completeEntity := by
  simp [toList, complete, OrderedMap.values, OrderedMap.mapValues]

theorem mem_toList_complete_iff :
    e ∈ m.complete.1.toList ↔ ∃ e₀ ∈ m.toList, m.completeEntity e₀ = e := by
  simp only [mem_toList_iff, entity?_complete, Option.map_eq_some_iff]
  constructor
  · rintro ⟨name, e₀, he₀, rfl⟩
    exact ⟨e₀, ⟨name, he₀⟩, rfl⟩
  · rintro ⟨e₀, ⟨name, he₀⟩, rfl⟩
    exact ⟨name, e₀, he₀, rfl⟩

theorem IsKeyedByName.complete (h : m.IsKeyedByName) : m.complete.1.IsKeyedByName := by
  rw [isKeyedByName_iff]
  intro name e he
  rw [entity?_complete, Option.map_eq_some_iff] at he
  obtain ⟨e₀, he₀, rfl⟩ := he
  exact isKeyedByName_iff.1 h name e₀ he₀

theorem Comprises.complete {P : Entity → Prop} (h : m.Comprises P)
    (hP : ∀ e, P e → P (m.completeEntity e)) : m.complete.1.Comprises P := by
  refine ⟨h.keyed.complete, fun e he => ?_⟩
  obtain ⟨e₀, he₀, rfl⟩ := mem_toList_complete_iff.1 he
  exact hP e₀ (h.entities e₀ he₀)

theorem isBuilt_completeEntity (m : Model) (h : e.IsBuilt) : (m.completeEntity e).IsBuilt := by
  refine ⟨h.nodup_names, h.links_eq_nil, fun fk hfk => ?_⟩
  obtain ⟨fk₀, hfk₀, rfl⟩ := List.mem_map.1 hfk
  exact (fk₀.sameColumns_completeIn m).keyIsBound (h.keys fk₀ hfk₀)

theorem isStated_completeEntity (m : Model) (h : e.IsStated) : (m.completeEntity e).IsStated := by
  have hends : (m.completeEntity e).keyEnds = e.keyEnds := by
    simp only [completeEntity, Entity.keyEnds, List.map_map]
    refine List.map_congr_left fun fk _ => ?_
    have hsame := fk.sameColumns_completeIn m
    simp only [Function.comp_apply, hsame.name, hsame.referenced]
  refine ⟨m.isBuilt_completeEntity h.toIsBuilt, ?_⟩
  rw [hends]
  exact h.nodup_keyEnds

end Model

end EntityModel
