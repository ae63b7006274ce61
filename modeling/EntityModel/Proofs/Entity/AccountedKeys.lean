import EntityModel.Proofs.Entity.Accounts
import EntityModel.Proofs.Grouping

/-!
# Foreign keys of accounts

The columns of a foreign key and the annotations kept for its link come from any number of
statements. A further account changes the key that it declares a column of, or brings a new one,
and leaves the others alone.
-/

namespace EntityModel

section FirstOccurrences

variable {α : Type} {r : α → α → Bool}

private theorem loop_concat (l kept : List α) (a : α) :
    List.eraseDupsBy.loop r (l ++ [a]) kept =
      if (List.eraseDupsBy.loop r l kept).any (r a) then List.eraseDupsBy.loop r l kept
      else List.eraseDupsBy.loop r l kept ++ [a] := by
  induction l generalizing kept with
  | nil =>
      rw [List.nil_append, List.eraseDupsBy.loop, List.eraseDupsBy.loop, List.any_reverse]
      cases kept.any (r a) <;> simp [List.eraseDupsBy.loop]
  | cons b l ih =>
      rw [List.cons_append, List.eraseDupsBy.loop, List.eraseDupsBy.loop]
      cases kept.any (r b) <;> exact ih _

theorem eraseDupsBy_concat (l : List α) (a : α) :
    (l ++ [a]).eraseDupsBy r =
      if (l.eraseDupsBy r).any (r a) then l.eraseDupsBy r else l.eraseDupsBy r ++ [a] :=
  loop_concat l [] a

end FirstOccurrences

namespace Account

variable {name : String} {a : Account} {ends : String × String}

theorem keyEnds?_of_key? {b : Binding} (h : a.key? name = some (ends, b)) :
    a.keyEnds? name = some ends := by
  rw [keyEnds?, h, Option.map_some]

theorem keptOn_of_key? {b : Binding} (h : a.key? name = some (ends, b)) (other : String × String) :
    a.keptOn name other = if ends = other then a.fates.filterMap Fate.kept? else [] := by
  simp [keptOn, keyEnds?_of_key? h]

theorem frame_of_keyEnds?_ne (h : a.keyEnds? name ≠ some ends) :
    a.bindingOn name ends = none ∧ a.keptOn name ends = [] := by
  refine ⟨?_, if_neg h⟩
  cases hkey : a.key? name with
  | none => simp [bindingOn, hkey]
  | some key =>
      have hne : key.1 ≠ ends := fun heq => h (by simp [keyEnds?, hkey, heq])
      simp [bindingOn, hkey, hne]

theorem keptOn_of_key?_eq_none (h : a.key? name = none) (ends : String × String) :
    a.keptOn name ends = [] :=
  (frame_of_keyEnds?_ne (by simp [keyEnds?, h])).2

end Account

namespace Entity

variable {name : String} {accounts : List Account} {a : Account} {ends : String × String}

theorem keyEndsOf_concat (h : a.keyEnds? name = some ends) :
    keyEndsOf name (accounts ++ [a]) =
      if ends ∈ keyEndsOf name accounts then keyEndsOf name accounts
      else keyEndsOf name accounts ++ [ends] := by
  rw [keyEndsOf, List.filterMap_append, List.filterMap_cons, h, List.filterMap_nil,
    eraseDups_concat]
  simp only [keyEndsOf, List.mem_eraseDups]

theorem keyEndsOf_concat_of_none (h : a.keyEnds? name = none) :
    keyEndsOf name (accounts ++ [a]) = keyEndsOf name accounts := by
  rw [keyEndsOf, List.filterMap_append, List.filterMap_cons, h, List.filterMap_nil,
    List.append_nil, keyEndsOf]

theorem nodup_keyEndsOf (name : String) (accounts : List Account) :
    (keyEndsOf name accounts).Nodup := nodup_eraseDups _

theorem keyOf_of_notMem (h : ends ∉ keyEndsOf name accounts) :
    keyOf name accounts ends = ⟨ends.1, name, ends.2, [], []⟩ := by
  have hframe : ∀ a ∈ accounts, a.bindingOn name ends = none ∧ a.keptOn name ends = [] := by
    intro a ha
    refine Account.frame_of_keyEnds?_ne fun hends => h ?_
    exact List.mem_eraseDups.2 (List.mem_filterMap.2 ⟨a, ha, hends⟩)
  have hbindings : accounts.filterMap (Account.bindingOn name ends) = [] :=
    List.filterMap_eq_nil_iff.2 fun a ha => (hframe a ha).1
  have hkept : accounts.flatMap (Account.keptOn name ends) = [] :=
    List.flatMap_eq_nil_iff.2 fun a ha => (hframe a ha).2
  rw [keyOf, hbindings, hkept]

theorem keyOf_concat_of_ne (h : a.keyEnds? name ≠ some ends) :
    keyOf name (accounts ++ [a]) ends = keyOf name accounts ends := by
  obtain ⟨hbinding, hkept⟩ := Account.frame_of_keyEnds?_ne h
  simp [keyOf, hbinding, hkept]

theorem keyOf_concat {b : Binding} (h : a.key? name = some (ends, b)) :
    keyOf name (accounts ++ [a]) ends =
      { keyOf name accounts ends with
        bindings := (keyOf name accounts ends).bindings ++ [b]
        linkAnnotations := (keyOf name accounts ends).linkAnnotations ++
          a.fates.filterMap Fate.kept? } := by
  have hbinding : a.bindingOn name ends = some b := by simp [Account.bindingOn, h]
  simp [keyOf, hbinding, Account.keptOn_of_key? h]

theorem keysOf_concat_of_none (h : a.keyEnds? name = none) :
    keysOf name (accounts ++ [a]) = keysOf name accounts := by
  rw [keysOf, keyEndsOf_concat_of_none h, keysOf]
  exact List.map_congr_left fun ends _ => keyOf_concat_of_ne (by simp [h])

theorem extendForeignKey_map {keys : List (String × String)} (hkeys : keys.Nodup)
    (make : String × String → ForeignKey)
    (hmake : ∀ ends, ((make ends).name, (make ends).referenced) = ends) (ends : String × String)
    (b : Binding) (uses : List AnnotationUse) :
    extendForeignKey ends.1 ends.2 b uses (keys.map make) =
      if ends ∈ keys then
        some (keys.map fun e => if e = ends then ((make e).addBinding b uses).1 else make e,
          ((make ends).addBinding b uses).2)
      else none := by
  induction keys with
  | nil => rfl
  | cons first rest ih =>
      rw [List.nodup_cons] at hkeys
      have hiff : ((make first).name = ends.1 ∧ (make first).referenced = ends.2) ↔
          first = ends := by
        rw [← Prod.mk.injEq, hmake first]
      rw [List.map_cons, extendForeignKey]
      by_cases hfirst : first = ends
      · subst hfirst
        have hrest :
            rest.map (fun e => if e = first then ((make e).addBinding b uses).1 else make e) =
              rest.map make := by
          refine List.map_congr_left fun e he => if_neg ?_
          rintro rfl
          exact hkeys.1 he
        rw [if_pos (hiff.2 rfl), if_pos (by simp), List.map_cons, if_pos rfl, hrest]
      · rw [if_neg (mt hiff.1 hfirst), ih hkeys.2]
        by_cases hmem : ends ∈ rest
        · simp [hmem, hfirst]
        · simp [hmem, Ne.symm hfirst]

theorem markForeignKey_concat {attributes : List Attribute} {a : Attribute}
    (h : a.name ∉ attributes.map Attribute.name) :
    markForeignKey a.name (attributes ++ [a]) =
      attributes ++ [{ a with isForeignKey := true }] := by
  induction attributes with
  | nil => simp [markForeignKey]
  | cons first rest ih =>
      rw [List.map_cons, List.mem_cons, not_or] at h
      rw [List.cons_append, markForeignKey, if_neg (Ne.symm h.1), ih h.2, List.cons_append]

def carries (name : String) (accounts : List Account) (ends : String × String)
    (use : AnnotationUse) : Bool :=
  (keyOf name accounts ends).linkAnnotations.any fun v => v.kind == use.kind

section Keys

variable {b : Binding} {uses : List AnnotationUse}

theorem keyOf_concat_eq (hkey : a.key? name = some (ends, b))
    (hkept : a.fates.filterMap Fate.kept? = uses.filter fun use => !carries name accounts ends use)
    (other : String × String) :
    keyOf name (accounts ++ [a]) other =
      if other = ends then ((keyOf name accounts other).addBinding b uses).1
      else keyOf name accounts other := by
  by_cases hother : other = ends
  · subst hother
    rw [if_pos rfl, keyOf_concat hkey, hkept]
    rfl
  · rw [if_neg hother, keyOf_concat_of_ne]
    rw [Account.keyEnds?_of_key? hkey, Ne, Option.some_inj]
    exact Ne.symm hother

theorem carries_of_notMem (h : ends ∉ keyEndsOf name accounts) :
    carries name accounts ends = fun _ => false := by
  funext use
  rw [carries, keyOf_of_notMem h]
  rfl

/-- Declaring a column turns the keys of the accounts into those with the account of its statement,
when that account keeps what the key does not carry yet. The rest is given back. -/
theorem declareForeignKey_keysOf {e : Entity} (hname : e.name = name)
    (hkeys : e.foreignKeys = keysOf name accounts) (hkey : a.key? name = some (ends, b))
    (hkept : a.fates.filterMap Fate.kept? =
      uses.filter fun use => !carries name accounts ends use) :
    e.declareForeignKey ends.1 ends.2 b uses =
      ({ e with
          attributes := markForeignKey b.origin e.attributes
          foreignKeys := keysOf name (accounts ++ [a]) },
        uses.filter (carries name accounts ends)) := by
  have hends := Account.keyEnds?_of_key? hkey
  have hextended : (keyEndsOf name accounts).map (fun e =>
      if e = ends then ((keyOf name accounts e).addBinding b uses).1 else keyOf name accounts e) =
        (keyEndsOf name accounts).map (keyOf name (accounts ++ [a])) :=
    List.map_congr_left fun e _ => (keyOf_concat_eq hkey hkept e).symm
  rw [declareForeignKey, hkeys, keysOf, extendForeignKey_map (nodup_keyEndsOf name accounts)
    (keyOf name accounts) (fun _ => rfl) ends b uses, hextended, keysOf, keyEndsOf_concat hends]
  by_cases hmem : ends ∈ keyEndsOf name accounts
  · simp only [if_pos hmem]
    rfl
  · have hold : (keyEndsOf name accounts).map (keyOf name (accounts ++ [a])) =
        (keyEndsOf name accounts).map (keyOf name accounts) := by
      refine List.map_congr_left fun e he => ?_
      rw [keyOf_concat_eq hkey hkept, if_neg]
      rintro rfl
      exact hmem he
    have hnew : keyOf name (accounts ++ [a]) ends = ⟨ends.1, name, ends.2, [b], uses⟩ := by
      rw [keyOf_concat hkey, hkept, carries_of_notMem hmem, keyOf_of_notMem hmem]
      simp
    rw [if_neg hmem, if_neg hmem, List.map_append, List.map_singleton, hold, hnew,
      carries_of_notMem hmem, hname]
    simp

end Keys

end Entity

end EntityModel
