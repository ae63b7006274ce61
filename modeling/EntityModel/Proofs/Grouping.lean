import Mathlib.Data.List.FinRange
import Mathlib.Data.List.Induction
import Mathlib.Data.List.Perm.Basic

/-!
# Groups of a list

A list falls into the groups of its elements with equal keys. The groups, one after the other, hold
each element as often as the list does.
-/

namespace EntityModel

variable {α κ : Type} [BEq κ] [LawfulBEq κ]

theorem eraseDups_concat (l : List κ) (k : κ) :
    (l ++ [k]).eraseDups = if k ∈ l then l.eraseDups else l.eraseDups ++ [k] := by
  rw [List.eraseDups_append]
  by_cases hk : k ∈ l <;> simp [List.removeAll, hk, List.eraseDups_cons]

theorem nodup_eraseDups (l : List κ) : l.eraseDups.Nodup := by
  induction l using List.reverseRecOn with
  | nil => exact .nil
  | append_singleton l k ih =>
      rw [eraseDups_concat]
      split
      · exact ih
      · rename_i hk
        refine List.nodup_append.2 ⟨ih, by simp, ?_⟩
        rintro a ha _ hlast rfl
        rw [List.mem_singleton.1 hlast, List.mem_eraseDups] at ha
        exact hk ha

theorem pairwise_idxOf_eraseDups (l : List κ) :
    l.eraseDups.Pairwise fun a b => l.idxOf a < l.idxOf b := by
  induction l using List.reverseRecOn with
  | nil => exact .nil
  | append_singleton l k ih =>
      have hold : l.eraseDups.Pairwise fun a b => (l ++ [k]).idxOf a < (l ++ [k]).idxOf b := by
        refine ih.imp_of_mem fun {a b} ha hb hab => ?_
        rw [List.idxOf_append_of_mem (List.mem_eraseDups.1 ha),
          List.idxOf_append_of_mem (List.mem_eraseDups.1 hb)]
        exact hab
      rw [eraseDups_concat]
      split
      · exact hold
      · rename_i hk
        refine List.pairwise_append.2 ⟨hold, List.pairwise_singleton _ _, fun a ha b hb => ?_⟩
        have ha' := List.mem_eraseDups.1 ha
        rw [List.mem_singleton.1 hb, List.idxOf_append_of_mem ha', List.idxOf_append_of_notMem hk]
        exact Nat.lt_add_right _ (List.idxOf_lt_length_of_mem ha')

omit [BEq κ] [LawfulBEq κ] in
theorem eq_of_pairwise_lt (f : κ → Nat) {l l' : List κ} (h : l.Pairwise fun a b => f a < f b)
    (h' : l'.Pairwise fun a b => f a < f b) (hmem : ∀ a, a ∈ l ↔ a ∈ l') : l = l' := by
  have hnodup {l : List κ} (h : l.Pairwise fun a b => f a < f b) : l.Nodup := by
    refine List.Pairwise.imp (fun {a b} hlt => ?_) h
    rintro rfl
    exact Nat.lt_irrefl _ hlt
  refine List.Perm.eq_of_pairwise (fun a b _ _ hab hba => ?_) h h'
    ((List.perm_ext_iff_of_nodup (hnodup h) (hnodup h')).2 hmem)
  exact absurd hab (Nat.lt_asymm hba)

theorem idxOf_map_lt (f : α → Nat) (key : α → κ) {l : List α}
    (h : l.Pairwise fun a b => f a < f b) {a : α} (ha : a ∈ l) {k : κ}
    (hbefore : ∀ b ∈ l, key b = k → f a < f b) :
    (l.map key).idxOf (key a) < (l.map key).idxOf k := by
  induction l with
  | nil => cases ha
  | cons first rest ih =>
      rw [List.pairwise_cons] at h
      have hfirst : key first ≠ k := by
        intro hkey
        have hlt := hbefore first (List.mem_cons_self ..) hkey
        rcases List.mem_cons.1 ha with rfl | hrest
        · exact Nat.lt_irrefl _ hlt
        · exact Nat.lt_asymm hlt (h.1 a hrest)
      rw [List.map_cons, List.idxOf_cons_ne _ hfirst]
      by_cases hsame : key first = key a
      · rw [hsame, List.idxOf_cons_self]
        exact Nat.succ_pos _
      · have hrest : a ∈ rest := by
          rcases List.mem_cons.1 ha with rfl | hrest
          · exact absurd rfl hsame
          · exact hrest
        rw [List.idxOf_cons_ne _ hsame]
        exact Nat.succ_lt_succ
          (ih h.2 hrest fun b hb => hbefore b (List.mem_cons_of_mem _ hb))

theorem flatMap_filter_perm {keys : List κ} (hkeys : keys.Nodup) (key : α → κ) {l : List α}
    (hcovered : ∀ a ∈ l, key a ∈ keys) :
    (keys.flatMap fun k => l.filter fun a => key a == k).Perm l := by
  induction keys generalizing l with
  | nil =>
      have hl : l = [] := List.eq_nil_iff_forall_not_mem.2 fun a ha => by simpa using hcovered a ha
      rw [hl]
      exact .nil
  | cons k keys ih =>
      rw [List.nodup_cons] at hkeys
      -- the groups of the other keys are the same among the elements that are not in the first
      have hrest : ∀ k' ∈ keys, (l.filter fun a => key a == k') =
          (l.filter fun a => !(key a == k)).filter fun a => key a == k' := by
        intro k' hk'
        rw [List.filter_filter]
        refine List.filter_congr fun a _ => ?_
        by_cases ha : key a = k'
        · have hne : k' ≠ k := fun heq => hkeys.1 (heq ▸ hk')
          simp [ha, hne]
        · simp [ha]
      have hothers : ∀ a ∈ l.filter fun a => !(key a == k), key a ∈ keys := by
        intro a ha
        obtain ⟨hmem, hne⟩ := List.mem_filter.1 ha
        rcases List.mem_cons.1 (hcovered a hmem) with heq | hkey
        · simp [heq] at hne
        · exact hkey
      have hperm := ih hkeys.2 hothers
      rw [List.flatMap_cons, List.flatMap_congr hrest]
      exact (hperm.append_left _).trans (List.filter_append_perm _ l)

theorem groups_perm (key : α → κ) (l : List α) :
    ((l.map key).eraseDups.flatMap fun k => l.filter fun a => key a == k).Perm l := by
  refine flatMap_filter_perm (nodup_eraseDups _) key fun a ha => ?_
  exact List.mem_eraseDups.2 (List.mem_map_of_mem ha)

section Places

variable (key : α → κ) (p : α → Bool) (l : List α)

/-- The places of the elements that have a property: the groups in the order in which they begin in
the list, and the places of each in its order. -/
def groupedPlaces : List (Fin l.length) :=
  (l.map key).eraseDups.flatMap fun k =>
    (List.finRange l.length).filter fun i => p l[i] && key l[i] == k

omit [LawfulBEq κ] in
theorem map_getElem_groupedPlaces :
    (groupedPlaces key p l).map (fun i => l[i]) =
      (l.map key).eraseDups.flatMap fun k => (l.filter p).filter fun a => key a == k := by
  have hgroup (q : α → Bool) :
      ((List.finRange l.length).filter fun i => q l[i]).map (fun i => l[i]) = l.filter q := by
    calc ((List.finRange l.length).filter fun i => q l[i]).map (fun i => l[i])
        = ((List.finRange l.length).map fun i => l[i]).filter q := List.filter_map.symm
      _ = l.filter q := congrArg (List.filter q) (List.map_getElem_finRange l)
  rw [groupedPlaces, List.map_flatMap]
  refine List.flatMap_congr fun k _ => ?_
  rw [hgroup fun a => p a && key a == k, List.filter_filter]
  simp only [Bool.and_comm]

theorem mem_groupedPlaces_iff {key : α → κ} {p : α → Bool} {l : List α} {i : Fin l.length} :
    i ∈ groupedPlaces key p l ↔ p l[i] = true := by
  simp only [groupedPlaces, List.mem_flatMap, List.mem_eraseDups, List.mem_filter,
    List.mem_finRange, true_and, Bool.and_eq_true, beq_iff_eq]
  constructor
  · rintro ⟨k, -, hp, -⟩
    exact hp
  · intro hp
    exact ⟨key l[i], List.mem_map_of_mem (List.getElem_mem i.isLt), hp, rfl⟩

theorem pairwise_groupedPlaces :
    (groupedPlaces key p l).Pairwise fun i j =>
      (l.map key).idxOf (key l[i]) < (l.map key).idxOf (key l[j]) ∨ key l[i] = key l[j] ∧ i < j := by
  rw [groupedPlaces, List.pairwise_flatMap]
  constructor
  · intro k _
    have hsorted := (List.pairwise_lt_finRange l.length).filter fun i => p l[i] && key l[i] == k
    refine hsorted.imp_of_mem fun {i j} hi hj hij => .inr ⟨?_, hij⟩
    simp only [List.mem_filter, Bool.and_eq_true, beq_iff_eq] at hi hj
    rw [hi.2.2, hj.2.2]
  · refine (pairwise_idxOf_eraseDups (l.map key)).imp fun {a b} hab i hi j hj => .inl ?_
    simp only [List.mem_filter, Bool.and_eq_true, beq_iff_eq] at hi hj
    rwa [hi.2.2, hj.2.2]

end Places

end EntityModel
