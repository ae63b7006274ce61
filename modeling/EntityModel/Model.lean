import EntityModel.Entity

/-!
# Models

A model holds entities by name, in the order in which they came.
-/

namespace EntityModel

structure Model where
  entities : OrderedMap String Entity
deriving DecidableEq

namespace Model

def empty : Model := ⟨.empty⟩

def entity? (m : Model) (name : String) : Option Entity := m.entities.find? name

def contains (m : Model) (name : String) : Bool := m.entities.contains name

def toList (m : Model) : List Entity := m.entities.values

def names (m : Model) : List String := m.entities.keys

def size (m : Model) : Nat := m.entities.size

def isEmpty (m : Model) : Bool := m.entities.isEmpty

def add? (m : Model) (e : Entity) : Option Model :=
  if m.contains e.name then none else some ⟨m.entities.insert e.name e⟩

variable {m : Model} {e : Entity}

theorem mem_toList_iff : e ∈ m.toList ↔ ∃ name, m.entity? name = some e := by
  simp only [toList, OrderedMap.values, List.mem_map, entity?, OrderedMap.find?_eq_some_iff]
  constructor
  · rintro ⟨entry, hentry, rfl⟩
    exact ⟨entry.1, hentry⟩
  · rintro ⟨name, hentry⟩
    exact ⟨(name, e), hentry, rfl⟩

theorem contains_eq_isSome (m : Model) (name : String) :
    m.contains name = (m.entity? name).isSome := rfl

def IsKeyedByName (m : Model) : Prop := ∀ entry ∈ m.entities.entries, entry.2.name = entry.1

instance (m : Model) : Decidable m.IsKeyedByName := inferInstanceAs (Decidable (∀ _ ∈ _, _))

theorem isKeyedByName_iff :
    m.IsKeyedByName ↔ ∀ name e, m.entity? name = some e → e.name = name := by
  simp only [entity?, OrderedMap.find?_eq_some_iff]
  constructor
  · intro h name e he
    exact h (name, e) he
  · intro h entry hentry
    exact h entry.1 entry.2 hentry

theorem IsKeyedByName.entity?_of_mem (h : m.IsKeyedByName) (he : e ∈ m.toList) :
    m.entity? e.name = some e := by
  obtain ⟨name, hname⟩ := mem_toList_iff.1 he
  rw [isKeyedByName_iff.1 h name e hname]
  exact hname

theorem IsKeyedByName.entity?_eq_some_iff (h : m.IsKeyedByName) {name : String} :
    m.entity? name = some e ↔ e ∈ m.toList ∧ e.name = name := by
  constructor
  · intro hname
    exact ⟨mem_toList_iff.2 ⟨name, hname⟩, isKeyedByName_iff.1 h name e hname⟩
  · rintro ⟨he, rfl⟩
    exact h.entity?_of_mem he

theorem IsKeyedByName.eq_of_toList_eq (h : m.IsKeyedByName) {m' : Model} (h' : m'.IsKeyedByName)
    (heq : m.toList = m'.toList) : m = m' := by
  have hentries {m : Model} (h : m.IsKeyedByName) :
      m.entities.entries = m.toList.map fun e => (e.name, e) := by
    rw [toList, OrderedMap.values, List.map_map]
    refine (List.map_id _).symm.trans (List.map_congr_left fun entry hentry => ?_)
    simp only [id_eq, Function.comp_apply, h entry hentry]
  obtain ⟨⟨entries, hkeys⟩⟩ := m
  obtain ⟨⟨entries', hkeys'⟩⟩ := m'
  obtain rfl : entries = entries' := (hentries h).trans ((congrArg _ heq).trans (hentries h').symm)
  rfl

theorem IsKeyedByName.map_name_toList (h : m.IsKeyedByName) :
    m.toList.map Entity.name = m.names := by
  rw [toList, names, OrderedMap.values, OrderedMap.keys, List.map_map]
  exact List.map_congr_left h

theorem IsKeyedByName.nodup_names (h : m.IsKeyedByName) : (m.toList.map Entity.name).Nodup := by
  rw [h.map_name_toList]
  exact m.entities.nodup_keys

theorem entity?_of_add? {m' : Model} (h : m.add? e = some m') (name : String) :
    m'.entity? name = if name = e.name then some e else m.entity? name := by
  rw [add?] at h
  split at h
  · cases h
  · obtain rfl := Option.some.inj h
    exact OrderedMap.find?_insert m.entities e.name name e

theorem toList_of_add? {m' : Model} (h : m.add? e = some m') : m'.toList = m.toList ++ [e] := by
  rw [add?] at h
  split at h
  · cases h
  · rename_i hnew
    obtain rfl := Option.some.inj h
    have hfree : ¬ m.entities.contains e.name = true := hnew
    simp [toList, OrderedMap.values, OrderedMap.insert, hfree]

theorem isKeyedByName_empty : empty.IsKeyedByName := by
  intro entry hentry
  cases hentry

theorem IsKeyedByName.add? (h : m.IsKeyedByName) {m' : Model} (hadd : m.add? e = some m') :
    m'.IsKeyedByName := by
  rw [isKeyedByName_iff] at h ⊢
  intro name e' he'
  rw [entity?_of_add? hadd] at he'
  split at he'
  · rename_i hname
    obtain rfl := Option.some.inj he'
    exact hname.symm
  · exact h name e' he'

theorem mem_toList_of_add? {m' : Model} (h : m.add? e = some m') {e' : Entity}
    (he' : e' ∈ m'.toList) : e' = e ∨ e' ∈ m.toList := by
  obtain ⟨name, hname⟩ := mem_toList_iff.1 he'
  rw [entity?_of_add? h] at hname
  split at hname
  · exact .inl (Option.some.inj hname).symm
  · exact .inr (mem_toList_iff.2 ⟨name, hname⟩)

structure Comprises (m : Model) (P : Entity → Prop) : Prop where
  keyed : m.IsKeyedByName
  entities : ∀ e ∈ m.toList, P e

theorem Comprises.mono {P Q : Entity → Prop} (h : m.Comprises P) (hPQ : ∀ e, P e → Q e) :
    m.Comprises Q :=
  ⟨h.keyed, fun e he => hPQ e (h.entities e he)⟩

theorem comprises_empty (P : Entity → Prop) : empty.Comprises P := by
  refine ⟨isKeyedByName_empty, fun e he => ?_⟩
  cases he

theorem Comprises.add? {P : Entity → Prop} (h : m.Comprises P) (he : P e) {m' : Model}
    (hadd : m.add? e = some m') : m'.Comprises P := by
  refine ⟨h.keyed.add? hadd, fun e' he' => ?_⟩
  rcases mem_toList_of_add? hadd he' with rfl | hold
  · exact he
  · exact h.entities e' hold

end Model

end EntityModel
