import EntityModel.ParamBag
import EntityModel.Proofs.Grouping
import Mathlib.Data.Finset.Card

/-!
# Histories of parameter bags

A bag is known from the operations that filled it. The last operation on a pair of an annotation
and a key gives the value of the pair; the first operations give the order in which the annotations
are listed and, within each of them, the keys.
-/

namespace EntityModel

namespace ParamBag

inductive Operation where
  | set (owner key : String) (value : ParamValue)
  | setFlag (owner : String)

namespace Operation

def owner : Operation → String
  | set owner _ _ => owner
  | setFlag owner => owner

def key : Operation → String
  | set _ key _ => key
  | setFlag _ => presenceKey

def value : Operation → ParamValue
  | set _ _ value => value
  | setFlag _ => .flag true

def pair (op : Operation) : String × String := (op.owner, op.key)

def apply (bag : ParamBag) : Operation → ParamBag
  | set owner key value => bag.set owner key value
  | setFlag owner => bag.setFlag owner

theorem apply_eq_set (bag : ParamBag) (op : Operation) :
    op.apply bag = bag.set op.owner op.key op.value := by
  cases op with
  | set owner key value => rfl
  | setFlag owner => rfl

end Operation

def ofOperations (ops : List Operation) : ParamBag := ops.foldl Operation.apply empty

/-- The value of the last operation on a pair. -/
def lastValue? (ops : List Operation) (owner key : String) : Option ParamValue :=
  (ops.filter fun op => op.pair = (owner, key)).getLast?.map Operation.value

def usedKeys (ops : List Operation) (owner : String) : List String :=
  ((ops.filter fun op => op.owner = owner).map Operation.key).eraseDups

/-- All pairs: the annotations in the order of the first operation on each, and the keys within. -/
def usedPairs (ops : List Operation) : List (String × String) :=
  (ops.map Operation.owner).eraseDups.flatMap fun owner =>
    (usedKeys ops owner).map fun key => (owner, key)

def pairs (bag : ParamBag) : List (String × String) :=
  bag.toList.map fun entry => (entry.1, entry.2.1)

section History

variable (ops : List Operation) (op : Operation)

theorem lastValue?_concat (owner key : String) :
    lastValue? (ops ++ [op]) owner key =
      if owner = op.owner ∧ key = op.key then some op.value else lastValue? ops owner key := by
  rw [lastValue?, List.filter_append, lastValue?]
  by_cases hpair : op.pair = (owner, key)
  · obtain ⟨howner, hkey⟩ := Prod.mk.inj hpair
    rw [if_pos ⟨howner.symm, hkey.symm⟩]
    simp [hpair]
  · rw [if_neg]
    · simp [hpair]
    · intro h
      apply hpair
      rw [Operation.pair, h.1, h.2]

theorem usedKeys_concat_self :
    usedKeys (ops ++ [op]) op.owner =
      if op.key ∈ usedKeys ops op.owner then usedKeys ops op.owner
      else usedKeys ops op.owner ++ [op.key] := by
  have hfilter : (ops ++ [op]).filter (fun op' => op'.owner = op.owner) =
      ops.filter (fun op' => op'.owner = op.owner) ++ [op] := by simp
  rw [usedKeys, hfilter, List.map_append, List.map_singleton, eraseDups_concat, usedKeys]
  simp only [List.mem_eraseDups]

theorem usedKeys_concat_of_ne {owner : String} (h : op.owner ≠ owner) :
    usedKeys (ops ++ [op]) owner = usedKeys ops owner := by
  simp [usedKeys, h]

theorem usedKeys_eq_nil {owner : String} (h : owner ∉ ops.map Operation.owner) :
    usedKeys ops owner = [] := by
  have hfilter : ops.filter (fun op => op.owner = owner) = [] := by
    rw [List.filter_eq_nil_iff]
    intro op hop howner
    apply h
    rw [List.mem_map]
    exact ⟨op, hop, by simpa using howner⟩
  rw [usedKeys, hfilter]
  rfl

theorem mem_usedPairs_iff {pair : String × String} :
    pair ∈ usedPairs ops ↔ pair ∈ ops.map Operation.pair := by
  obtain ⟨owner, key⟩ := pair
  simp only [usedPairs, usedKeys, List.mem_flatMap, List.mem_map, List.mem_eraseDups,
    List.mem_filter, Prod.mk.injEq, Operation.pair, decide_eq_true_eq]
  constructor
  · rintro ⟨_, -, _, ⟨op, ⟨hop, rfl⟩, rfl⟩, rfl, rfl⟩
    exact ⟨op, hop, rfl, rfl⟩
  · rintro ⟨op, hop, rfl, rfl⟩
    exact ⟨op.owner, ⟨op, hop, rfl⟩, op.key, ⟨op, ⟨hop, rfl⟩, rfl⟩, rfl, rfl⟩

theorem usedPairs_concat_of_mem {ops : List Operation} {op : Operation}
    (h : op.pair ∈ ops.map Operation.pair) : usedPairs (ops ++ [op]) = usedPairs ops := by
  obtain ⟨first, hfirst, hpair⟩ := List.mem_map.1 h
  obtain ⟨howner, hkey⟩ := Prod.mk.inj hpair
  have howners : op.owner ∈ ops.map Operation.owner := by
    rw [List.mem_map]
    exact ⟨first, hfirst, howner⟩
  have hkeys : op.key ∈ usedKeys ops op.owner := by
    rw [usedKeys, List.mem_eraseDups, List.mem_map]
    refine ⟨first, ?_, hkey⟩
    rw [List.mem_filter]
    exact ⟨hfirst, decide_eq_true howner⟩
  rw [usedPairs, List.map_append, List.map_singleton, eraseDups_concat, if_pos howners, usedPairs]
  apply List.flatMap_congr
  intro owner _
  by_cases hsame : op.owner = owner
  · subst hsame
    rw [usedKeys_concat_self, if_pos hkeys]
  · rw [usedKeys_concat_of_ne ops op hsame]

theorem nodup_usedPairs : (usedPairs ops).Nodup := by
  rw [usedPairs, List.nodup_flatMap]
  constructor
  · intro owner _
    apply (nodup_eraseDups _).map
    intro key key' h
    exact (Prod.mk.inj h).2
  · apply (nodup_eraseDups _).imp
    intro owner owner' hne pair hpair hpair'
    obtain ⟨key, -, rfl⟩ := List.mem_map.1 hpair
    obtain ⟨key', -, h⟩ := List.mem_map.1 hpair'
    exact hne (Prod.mk.inj h).1.symm

end History

section Listing

variable (bag : ParamBag)

theorem mem_toList_iff {owner key : String} {value : ParamValue} :
    (owner, key, value) ∈ bag.toList ↔ bag.get? owner key = some value := by
  simp only [toList, get?, List.mem_flatMap, List.mem_map, Option.bind_eq_some_iff,
    OrderedMap.find?_eq_some_iff, Prod.exists, Prod.mk.injEq]
  constructor
  · rintro ⟨_, space, hspace, _, _, hentry, rfl, rfl, rfl⟩
    exact ⟨space, hspace, hentry⟩
  · rintro ⟨space, hspace, hentry⟩
    exact ⟨owner, space, hspace, key, value, hentry, rfl, rfl, rfl⟩

theorem size_eq_length : bag.size = bag.toList.length := by
  rw [size, toList, OrderedMap.values]
  induction bag.namespaces.entries with
  | nil => rfl
  | cons entry entries ih =>
      rw [List.map_cons, List.foldr_cons, ih, List.flatMap_cons, List.length_append, List.length_map,
        OrderedMap.size]

theorem pairs_eq : bag.pairs = bag.namespaces.entries.flatMap fun entry =>
    entry.2.keys.map fun key => (entry.1, key) := by
  rw [pairs, toList, List.map_flatMap]
  apply List.flatMap_congr
  intro entry _
  rw [OrderedMap.keys, List.map_map, List.map_map]
  rfl

end Listing

/-- The bag as the operations leave it, namespace by namespace. A namespace comes with its first
value, so that none is empty. -/
structure Records (bag : ParamBag) (ops : List Operation) : Prop where
  owners : bag.namespaces.keys = (ops.map Operation.owner).eraseDups
  keys : ∀ owner space, bag.namespaces.find? owner = some space → space.keys = usedKeys ops owner
  get?_eq : ∀ owner key, bag.get? owner key = lastValue? ops owner key

theorem records_empty : empty.Records [] := by
  refine ⟨rfl, ?_, fun owner key => rfl⟩
  intro owner space hspace
  cases hspace

namespace Records

variable {bag : ParamBag} {ops : List Operation}

theorem mem_owners_iff (h : bag.Records ops) {owner : String} :
    owner ∈ bag.namespaces.keys ↔ owner ∈ ops.map Operation.owner := by
  rw [h.owners, List.mem_eraseDups]

theorem keys_getD (h : bag.Records ops) (owner : String) :
    ((bag.namespaces.find? owner).getD .empty).keys = usedKeys ops owner := by
  cases hspace : bag.namespaces.find? owner with
  | some space => exact h.keys owner space hspace
  | none =>
      have hnew : owner ∉ ops.map Operation.owner := by
        rw [← h.mem_owners_iff]
        exact OrderedMap.find?_eq_none_iff.1 hspace
      rw [usedKeys_eq_nil ops hnew]
      rfl

theorem apply (h : bag.Records ops) (op : Operation) : (op.apply bag).Records (ops ++ [op]) := by
  rw [Operation.apply_eq_set]
  refine ⟨?_, ?_, ?_⟩
  · rw [set, OrderedMap.keys_insert, List.map_append, List.map_singleton, eraseDups_concat,
      ← h.owners]
    simp only [h.mem_owners_iff]
  · intro owner space hspace
    rw [set, OrderedMap.find?_insert] at hspace
    by_cases howner : owner = op.owner
    · subst howner
      rw [if_pos rfl] at hspace
      obtain rfl := Option.some.inj hspace
      rw [OrderedMap.keys_insert, h.keys_getD, usedKeys_concat_self]
    · rw [if_neg howner] at hspace
      rw [usedKeys_concat_of_ne ops op (Ne.symm howner)]
      exact h.keys owner space hspace
  · intro owner key
    rw [get?_set, lastValue?_concat, h.get?_eq]

theorem has_iff (h : bag.Records ops) (owner : String) :
    bag.has owner = true ↔ ∃ op ∈ ops, op.owner = owner := by
  rw [has, OrderedMap.contains_iff, h.mem_owners_iff, List.mem_map]

theorem isEmpty_iff (h : bag.Records ops) : bag.isEmpty = true ↔ ops = [] := by
  have hkeys : bag.isEmpty = true ↔ bag.namespaces.keys = [] := by
    rw [isEmpty, OrderedMap.isEmpty, List.isEmpty_iff, OrderedMap.keys, List.map_eq_nil_iff]
  rw [hkeys, List.eq_nil_iff_forall_not_mem, List.eq_nil_iff_forall_not_mem]
  constructor
  · intro hnone op hop
    exact hnone op.owner (h.mem_owners_iff.2 (List.mem_map_of_mem hop))
  · intro hnone owner howner
    obtain ⟨op, hop, -⟩ := List.mem_map.1 (h.mem_owners_iff.1 howner)
    exact hnone op hop

theorem pairs_eq_usedPairs (h : bag.Records ops) : bag.pairs = usedPairs ops := by
  have hentries : bag.pairs = bag.namespaces.entries.flatMap fun entry =>
      (usedKeys ops entry.1).map fun key => (entry.1, key) := by
    rw [pairs_eq]
    apply List.flatMap_congr
    intro entry hentry
    rw [h.keys entry.1 entry.2 (OrderedMap.find?_eq_some_iff.2 hentry)]
  rw [hentries, usedPairs, ← h.owners, OrderedMap.keys, List.flatMap_map]

theorem size_eq_card (h : bag.Records ops) : bag.size = (ops.map Operation.pair).toFinset.card := by
  have hsame : (ops.map Operation.pair).toFinset = (usedPairs ops).toFinset := by
    ext pair
    rw [List.mem_toFinset, List.mem_toFinset, mem_usedPairs_iff]
  have hlength : bag.pairs.length = bag.toList.length := List.length_map _
  rw [size_eq_length, ← hlength, h.pairs_eq_usedPairs, hsame,
    List.toFinset_card_of_nodup (nodup_usedPairs ops)]

end Records

theorem records_ofOperations (ops : List Operation) : (ofOperations ops).Records ops := by
  induction ops using List.reverseRecOn with
  | nil => exact records_empty
  | append_singleton ops op ih =>
      rw [ofOperations, List.foldl_append]
      exact ih.apply op

/-- Whatever can be asked of a bag can be asked of the operations on it. The listing names every pair
once, where its first operation has put it, with the value of its last one. -/
structure TellsHistory (bag : ParamBag) (ops : List Operation) : Prop where
  get?_eq : ∀ owner key, bag.get? owner key = lastValue? ops owner key
  has_iff : ∀ owner, bag.has owner = true ↔ ∃ op ∈ ops, op.owner = owner
  size_eq : bag.size = (ops.map Operation.pair).toFinset.card
  isEmpty_iff : bag.isEmpty = true ↔ ops = []
  mem_toList_iff : ∀ owner key value,
    (owner, key, value) ∈ bag.toList ↔ lastValue? ops owner key = some value
  pairs_eq : bag.pairs = usedPairs ops
  nodup_pairs : bag.pairs.Nodup
  pairs_overwrite : ∀ op : Operation, op.pair ∈ ops.map Operation.pair →
    (op.apply bag).pairs = bag.pairs

theorem tellsHistory_ofOperations (ops : List Operation) :
    (ofOperations ops).TellsHistory ops := by
  have h := records_ofOperations ops
  refine ⟨h.get?_eq, h.has_iff, h.size_eq_card, h.isEmpty_iff, ?_, h.pairs_eq_usedPairs, ?_, ?_⟩
  · intro owner key value
    rw [mem_toList_iff, h.get?_eq]
  · rw [h.pairs_eq_usedPairs]
    exact nodup_usedPairs ops
  · intro op hop
    rw [(h.apply op).pairs_eq_usedPairs, h.pairs_eq_usedPairs, usedPairs_concat_of_mem hop]

example :
    let ops : List Operation := [.set "MinMaxSize" "min" (.text "1"), .setFlag "Id",
      .set "MinMaxSize" "max" (.text "9"), .set "MinMaxSize" "min" (.text "2")]
    (ofOperations ops).toList =
      [("MinMaxSize", "min", .text "2"), ("MinMaxSize", "max", .text "9"),
        ("Id", "exists", .flag true)] := by decide

end ParamBag

end EntityModel
