import EntityModel.Model.Links
import Mathlib.Data.List.Nodup

/-!
# Names of fields

A link enters an entity under a name that no field has. The numbered names of one wanted name are
distinct, and there are more of them than fields.
-/

namespace EntityModel

namespace Entity

variable {e : Entity} {wanted : String}

def fieldNames (e : Entity) : List String :=
  e.attributes.map Attribute.name ++ e.links.map Link.field

theorem length_fieldNames (e : Entity) :
    e.fieldNames.length = e.attributes.length + e.links.length := by
  simp [fieldNames]

theorem attribute?_isSome_iff {name : String} :
    (e.attribute? name).isSome = true ↔ name ∈ e.attributes.map Attribute.name := by
  simp [attribute?, List.find?_isSome]

theorem hasField_iff {name : String} : e.hasField name = true ↔ name ∈ e.fieldNames := by
  have hlink : (e.link? name).isSome = true ↔ name ∈ e.links.map Link.field := by
    simp [link?, List.find?_isSome]
  rw [hasField, Bool.or_eq_true, attribute?_isSome_iff, hlink, fieldNames, List.mem_append]

def numbered (wanted : String) (n : Nat) : String := wanted ++ toString n

theorem toList_numbered (wanted : String) (n : Nat) :
    (numbered wanted n).toList = wanted.toList ++ Nat.toDigits 10 n := by
  simp [numbered]

theorem numbered_injective (wanted : String) {i j : Nat}
    (h : numbered wanted i = numbered wanted j) : i = j := by
  have hchars : wanted.toList ++ Nat.toDigits 10 i = wanted.toList ++ Nat.toDigits 10 j := by
    rw [← toList_numbered, h, toList_numbered]
  have hdigits : Nat.toDigits 10 i = Nat.toDigits 10 j := List.append_cancel_left hchars
  rw [← Nat.ofDigitChars_ten_toDigits (n := i), hdigits, Nat.ofDigitChars_ten_toDigits]

theorem numbered_ne (wanted : String) (n : Nat) : numbered wanted n ≠ wanted := by
  intro h
  have hchars : wanted.toList ++ Nat.toDigits 10 n = wanted.toList ++ [] := by
    rw [← toList_numbered, h, List.append_nil]
  exact Nat.toDigits_ne_nil (List.append_cancel_left hchars)

private theorem nodup_candidates (wanted : String) (count : Nat) :
    (wanted :: (List.range' 2 count).map (numbered wanted)).Nodup := by
  rw [List.nodup_cons]
  refine ⟨?_, ?_⟩
  · intro hmem
    obtain ⟨n, -, hn⟩ := List.mem_map.1 hmem
    exact numbered_ne wanted n hn
  · rw [List.Nodup, List.pairwise_map]
    have hrange : (List.range' 2 count).Nodup := List.nodup_range'
    exact hrange.imp fun hne heq => hne (numbered_injective wanted heq)

private theorem exists_free (e : Entity) (wanted : String) (htaken : wanted ∈ e.fieldNames) :
    ∃ n ∈ List.range' 2 (e.attributes.length + e.links.length),
      numbered wanted n ∉ e.fieldNames := by
  apply Classical.byContradiction
  intro hnone
  simp only [not_exists, not_and, Classical.not_not] at hnone
  have hsubset : wanted :: (List.range' 2 (e.attributes.length + e.links.length)).map
      (numbered wanted) ⊆ e.fieldNames := by
    intro name hmem
    rcases List.mem_cons.1 hmem with rfl | hmem
    · exact htaken
    · obtain ⟨n, hn, rfl⟩ := List.mem_map.1 hmem
      exact hnone n hn
  have hlength := (nodup_candidates wanted _).length_le_of_subset hsubset
  rw [List.length_cons, List.length_map, List.length_range', length_fieldNames] at hlength
  omega

/-- The first free name among so many numbered ones, which are tried in turn from two on. -/
def firstFree? (e : Entity) (wanted : String) (count : Nat) : Option String :=
  ((List.range' 2 count).map (numbered wanted)).find? fun name => !e.hasField name

/-- The number makes the wanted name free, and no smaller one from two on does. -/
structure IsFirstFree (e : Entity) (wanted : String) (n : Nat) : Prop where
  two_le : 2 ≤ n
  free : numbered wanted n ∉ e.fieldNames
  taken : ∀ k, 2 ≤ k → k < n → numbered wanted k ∈ e.fieldNames

theorem firstFree?_eq_some_iff {count n : Nat} :
    firstFree? e wanted count = some (numbered wanted n) ↔ n < 2 + count ∧ e.IsFirstFree wanted n := by
  have hsearch : firstFree? e wanted count = some (numbered wanted n) ↔
      (List.range' 2 count).find? (fun n => !e.hasField (numbered wanted n)) = some n := by
    rw [firstFree?, List.find?_map, Option.map_eq_some_iff]
    constructor
    · intro h
      obtain ⟨k, hk, hsame⟩ := h
      rw [numbered_injective wanted hsame] at hk
      exact hk
    · intro h
      exact ⟨n, h, rfl⟩
  have hfree (k : Nat) : (!e.hasField (numbered wanted k)) = true ↔
      numbered wanted k ∉ e.fieldNames := by
    rw [Bool.not_eq_true', ← Bool.not_eq_true, hasField_iff]
  have htaken (k : Nat) : (!!e.hasField (numbered wanted k)) = true ↔
      numbered wanted k ∈ e.fieldNames := by
    rw [Bool.not_not, hasField_iff]
  rw [hsearch, List.find?_range'_eq_some, List.mem_range'_1, hfree]
  simp only [htaken]
  constructor
  · intro h
    obtain ⟨hnot, hrange, hbefore⟩ := h
    exact ⟨hrange.2, hrange.1, hnot, hbefore⟩
  · intro h
    obtain ⟨hbound, hfirst⟩ := h
    exact ⟨hfirst.free, ⟨hfirst.two_le, hbound⟩, hfirst.taken⟩

theorem exists_isFirstFree (htaken : wanted ∈ e.fieldNames) :
    ∃ n, e.IsFirstFree wanted n ∧ n ≤ e.attributes.length + e.links.length + 1 ∧
      e.freeFieldName wanted = numbered wanted n := by
  -- one candidate more than there are fields, so that one of them is free
  obtain ⟨k, hk, hfree⟩ := exists_free e wanted htaken
  have hsome : (firstFree? e wanted (e.attributes.length + e.links.length)).isSome = true := by
    rw [firstFree?, List.find?_isSome]
    refine ⟨numbered wanted k, List.mem_map_of_mem hk, ?_⟩
    rw [Bool.not_eq_true', ← Bool.not_eq_true, hasField_iff]
    exact hfree
  obtain ⟨name, hname⟩ := Option.isSome_iff_exists.1 hsome
  obtain ⟨n, -, rfl⟩ := List.mem_map.1 (List.mem_of_find?_eq_some hname)
  obtain ⟨hbound, hfirst⟩ := firstFree?_eq_some_iff.1 hname
  refine ⟨n, hfirst, by omega, ?_⟩
  have hfield : e.hasField wanted = true := hasField_iff.2 htaken
  have hsearch : e.freeFieldName wanted =
      (firstFree? e wanted (e.attributes.length + e.links.length)).getD wanted := by
    rw [freeFieldName, hfield]
    rfl
  rw [hsearch, hname, Option.getD_some]

theorem freeFieldName_of_notMem (hfree : wanted ∉ e.fieldNames) :
    e.freeFieldName wanted = wanted := by
  have hfield : e.hasField wanted = false := by
    rw [← Bool.not_eq_true, hasField_iff]
    exact hfree
  rw [freeFieldName, hfield]
  rfl

theorem freeFieldName_notMem (e : Entity) (wanted : String) :
    e.freeFieldName wanted ∉ e.fieldNames := by
  by_cases htaken : wanted ∈ e.fieldNames
  · obtain ⟨n, hfirst, -, hname⟩ := exists_isFirstFree htaken
    rw [hname]
    exact hfirst.free
  · rw [freeFieldName_of_notMem htaken]
    exact htaken

/-- A name that no field has is given as it is. One that is taken gets the least number from two on
that makes it free; that number is at most one more than there are fields, and a search that goes
on for longer, however long, ends with the same name. -/
theorem freeFieldName_eq_first (e : Entity) (wanted : String) :
    wanted ∉ e.fieldNames ∧ e.freeFieldName wanted = wanted ∨
      wanted ∈ e.fieldNames ∧ ∃ n, e.IsFirstFree wanted n ∧
        n ≤ e.attributes.length + e.links.length + 1 ∧
        e.freeFieldName wanted = numbered wanted n ∧
        ∀ count, e.attributes.length + e.links.length ≤ count →
          firstFree? e wanted count = some (e.freeFieldName wanted) := by
  by_cases htaken : wanted ∈ e.fieldNames
  · right
    obtain ⟨n, hfirst, hbound, hname⟩ := exists_isFirstFree htaken
    refine ⟨htaken, n, hfirst, hbound, hname, ?_⟩
    intro count hcount
    rw [hname, firstFree?_eq_some_iff]
    exact ⟨by omega, hfirst⟩
  · left
    exact ⟨htaken, freeFieldName_of_notMem htaken⟩

theorem freeFieldName_eq_first_item :
    let e : Entity :=
      { Entity.ofName "Order" with
        attributes := [.ofType "item1" .integer, .ofType "item12" .integer,
          .ofType "item12" .string]
        links := [.ofCardinality "item13" "Item" .manyToOne] }
    e.attributes.length + e.links.length ≤ 7 ∧ e.freeFieldName "item1" = "item14" ∧
      firstFree? e "item1" 7 = some "item14" := by
  intro e
  have hbound : e.attributes.length + e.links.length ≤ 7 := by decide
  have hname : e.freeFieldName "item1" = "item14" := by decide
  rcases freeFieldName_eq_first e "item1" with ⟨hfree, -⟩ | ⟨-, n, -, -, -, hsearch⟩
  · exact absurd (by decide) hfree
  · have hfound := hsearch 7 hbound
    rw [hname] at hfound
    exact ⟨hbound, hname, hfound⟩

def addNamed (e : Entity) (l : Link) : Entity :=
  e.addLink { l with field := e.freeFieldName l.field }

def addAllNamed (e : Entity) (ls : List Link) : Entity := ls.foldl addNamed e

theorem nodup_fieldNames_addNamed (h : e.fieldNames.Nodup) (l : Link) :
    (e.addNamed l).fieldNames.Nodup := by
  have hnames : (e.addNamed l).fieldNames = e.fieldNames ++ [e.freeFieldName l.field] := by
    simp [addNamed, addLink, fieldNames]
  rw [hnames, List.nodup_middle, List.append_nil, List.nodup_cons]
  exact ⟨freeFieldName_notMem e l.field, h⟩

theorem nodup_fieldNames_addAllNamed (h : e.fieldNames.Nodup) (ls : List Link) :
    (e.addAllNamed ls).fieldNames.Nodup := by
  induction ls generalizing e with
  | nil => exact h
  | cons l ls ih => exact ih (nodup_fieldNames_addNamed h l)

end Entity

end EntityModel
