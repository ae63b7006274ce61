/-!
# Maps in insertion order

A map lists its entries in the order in which their keys came. Storing under a present key
replaces the value where it stands; a new key goes to the end. No key occurs twice.
-/

namespace EntityModel

structure OrderedMap (α β : Type) where
  entries : List (α × β)
  nodup_keys : (entries.map Prod.fst).Nodup
deriving DecidableEq

namespace OrderedMap

variable {α β γ : Type}

def empty : OrderedMap α β := ⟨[], by simp⟩

instance : Inhabited (OrderedMap α β) := ⟨empty⟩

def keys (m : OrderedMap α β) : List α := m.entries.map Prod.fst

def values (m : OrderedMap α β) : List β := m.entries.map Prod.snd

def size (m : OrderedMap α β) : Nat := m.entries.length

def isEmpty (m : OrderedMap α β) : Bool := m.entries.isEmpty

def mapValues (m : OrderedMap α β) (f : α → β → γ) : OrderedMap α γ where
  entries := m.entries.map fun e => (e.1, f e.1 e.2)
  nodup_keys := by
    have h : (m.entries.map fun e => (e.1, f e.1 e.2)).map Prod.fst = m.entries.map Prod.fst := by
      rw [List.map_map]
      rfl
    rw [h]
    exact m.nodup_keys

theorem keys_mapValues (m : OrderedMap α β) (f : α → β → γ) : (m.mapValues f).keys = m.keys := by
  simp [keys, mapValues]

variable [DecidableEq α]

def find? (m : OrderedMap α β) (k : α) : Option β := m.entries.lookup k

def contains (m : OrderedMap α β) (k : α) : Bool := (m.find? k).isSome

def modify (m : OrderedMap α β) (k : α) (f : β → β) : OrderedMap α β where
  entries := m.entries.map fun e => if e.1 = k then (e.1, f e.2) else e
  nodup_keys := by
    have h : (m.entries.map fun e => if e.1 = k then (e.1, f e.2) else e).map Prod.fst =
        m.entries.map Prod.fst := by
      rw [List.map_map]
      refine List.map_congr_left fun e _ => ?_
      simp only [Function.comp_apply]
      split <;> rfl
    rw [h]
    exact m.nodup_keys

theorem find?_eq_none_iff {m : OrderedMap α β} {k : α} : m.find? k = none ↔ k ∉ m.keys := by
  simp only [find?, keys, List.lookup_eq_none_iff, List.mem_map, not_exists, not_and]
  constructor
  · intro h e he hk
    have := h e he
    simp [hk] at this
  · intro h e he
    simpa using fun hk => h e he hk.symm

theorem find?_eq_some_iff {m : OrderedMap α β} {k : α} {v : β} :
    m.find? k = some v ↔ (k, v) ∈ m.entries := by
  obtain ⟨entries, hkeys⟩ := m
  simp only [find?]
  induction entries with
  | nil => simp
  | cons e rest ih =>
      obtain ⟨key, value⟩ := e
      rw [List.map_cons, List.nodup_cons] at hkeys
      by_cases hk : k = key
      · subst hk
        have hrest : (k, v) ∉ rest := fun hmem => hkeys.1 (List.mem_map.2 ⟨(k, v), hmem, rfl⟩)
        simp [hrest, eq_comm]
      · have hb : (k == key) = false := by simpa using hk
        rw [List.lookup_cons, hb]
        simp [ih hkeys.2, hk]

theorem contains_iff {m : OrderedMap α β} {k : α} : m.contains k = true ↔ k ∈ m.keys := by
  have h := find?_eq_none_iff (m := m) (k := k)
  rw [contains]
  cases hf : m.find? k with
  | none => simpa using h.1 hf
  | some v =>
      simp only [Option.isSome_some, true_iff]
      exact Classical.byContradiction fun hk => by simp [h.2 hk] at hf

def insert (m : OrderedMap α β) (k : α) (v : β) : OrderedMap α β :=
  if h : m.contains k = true then m.modify k fun _ => v
  else
    { entries := m.entries ++ [(k, v)]
      nodup_keys := by
        have hk : k ∉ m.keys := fun hm => h (contains_iff.2 hm)
        simp only [List.map_append, List.map_cons, List.map_nil]
        refine List.nodup_append.2 ⟨m.nodup_keys, by simp, ?_⟩
        intro a ha b hb hab
        rw [List.mem_singleton.1 hb] at hab
        exact hk (hab ▸ ha) }

def ofList (entries : List (α × β)) : OrderedMap α β :=
  entries.foldl (fun m e => m.insert e.1 e.2) empty

theorem keys_modify (m : OrderedMap α β) (k : α) (f : β → β) : (m.modify k f).keys = m.keys := by
  simp only [keys, modify, List.map_map]
  refine List.map_congr_left fun e _ => ?_
  simp only [Function.comp_apply]
  split <;> rfl

theorem keys_insert (m : OrderedMap α β) (k : α) (v : β) :
    (m.insert k v).keys = if k ∈ m.keys then m.keys else m.keys ++ [k] := by
  by_cases h : k ∈ m.keys
  · simp [insert, contains_iff.2 h, keys_modify, h]
  · have hc : ¬ m.contains k = true := fun hm => h (contains_iff.1 hm)
    simp only [insert, hc, not_false_eq_true, h, if_neg]
    simp [keys]

@[simp] theorem find?_empty (k : α) : (empty : OrderedMap α β).find? k = none := rfl

theorem find?_mapValues (m : OrderedMap α β) (f : α → β → γ) (k : α) :
    (m.mapValues f).find? k = (m.find? k).map (f k) := by
  simp only [find?, mapValues]
  induction m.entries with
  | nil => rfl
  | cons e rest ih =>
      obtain ⟨key, value⟩ := e
      by_cases hk : k = key
      · subst hk
        simp
      · have hb : (k == key) = false := by simpa using hk
        simp only [List.map_cons, List.lookup_cons, hb, ih]

private theorem lookup_map_modify (entries : List (α × β)) (k l : α) (f : β → β) :
    (entries.map fun e => if e.1 = k then (e.1, f e.2) else e).lookup l =
      if l = k then (entries.lookup l).map f else entries.lookup l := by
  induction entries with
  | nil => simp
  | cons e rest ih =>
      obtain ⟨key, value⟩ := e
      by_cases hk : key = k
      · subst hk
        by_cases hl : l = key
        · subst hl
          simp
        · have hb : (l == key) = false := by simpa using hl
          simp [List.lookup_cons, hb, ih, hl]
      · by_cases hl : l = key
        · subst hl
          simp [hk]
        · have hb : (l == key) = false := by simpa using hl
          simp [List.lookup_cons, hk, hb, ih]

theorem find?_modify (m : OrderedMap α β) (k l : α) (f : β → β) :
    (m.modify k f).find? l = if l = k then (m.find? l).map f else m.find? l :=
  lookup_map_modify m.entries k l f

theorem find?_insert (m : OrderedMap α β) (k l : α) (v : β) :
    (m.insert k v).find? l = if l = k then some v else m.find? l := by
  by_cases h : m.contains k = true
  · rw [insert, dif_pos h, find?_modify]
    by_cases hl : l = k
    · subst hl
      obtain ⟨w, hw⟩ := Option.isSome_iff_exists.1 h
      simp [hw]
    · simp [hl]
  · rw [insert, dif_neg h]
    have hnone : m.entries.lookup k = none :=
      find?_eq_none_iff.2 fun hk => h (contains_iff.2 hk)
    simp only [find?, List.lookup_append]
    by_cases hl : l = k
    · subst hl
      simp [hnone]
    · have hb : (l == k) = false := by simpa using hl
      simp [hl, List.lookup_cons, hb]

end OrderedMap

end EntityModel
