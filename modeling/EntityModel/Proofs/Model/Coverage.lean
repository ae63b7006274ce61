import EntityModel.Proofs.Model.Completion
import Mathlib.Data.List.Perm.Basic

/-!
# Keys covered by foreign keys

A foreign key with an open column should stand for the whole key of the referenced entity.
Completion fills the open columns by position, and compares the number of columns with the length
of the key; it does not compare the explicit columns with the positions at which they stand. Hence
a key that passes covers the referenced key if and only if its explicit columns only permute the
key attributes beside them.
-/

namespace EntityModel

namespace Entity

def keyFields (e : Entity) : List String := e.keyAttributes.map Attribute.name

end Entity

namespace ForeignKey

/-- The columns stand for the attributes of a key, each attribute for one column. -/
def Covers (fk : ForeignKey) (key : List String) : Prop :=
  (fk.bindings.map Binding.referenced?).Perm (key.map some)

instance (fk : ForeignKey) (key : List String) : Decidable (fk.Covers key) :=
  inferInstanceAs (Decidable (List.Perm _ _))

def named (key : List String) (bindings : List Binding) : List (String × String) :=
  (key.zip bindings).filterMap fun pair => pair.2.referenced?.map fun name => (pair.1, name)

/-- As many columns as the key has attributes, the explicit ones naming the key attributes of
their own positions in some order. -/
structure IsAligned (fk : ForeignKey) (key : List String) : Prop where
  length_eq : fk.bindings.length = key.length
  named_perm : ((named key fk.bindings).map Prod.snd).Perm ((named key fk.bindings).map Prod.fst)

instance (fk : ForeignKey) (key : List String) : Decidable (fk.IsAligned key) :=
  decidable_of_iff (_ ∧ _) ⟨fun h => ⟨h.1, h.2⟩, fun h => ⟨h.1, h.2⟩⟩

/-- What a column stands for: the attribute it names, or else the key attribute beside it. -/
def filled (pair : String × Binding) : String := pair.2.referenced?.getD pair.1

theorem count_filled (name : String) (key : List String) (bindings : List Binding) :
    ((key.zip bindings).map filled).count name + ((named key bindings).map Prod.fst).count name =
      ((key.zip bindings).map Prod.fst).count name +
        ((named key bindings).map Prod.snd).count name := by
  rw [named]
  induction key.zip bindings with
  | nil => rfl
  | cons pair pairs ih =>
      obtain ⟨attr, b⟩ := pair
      cases hb : b.referenced? with
      | none =>
          have hfilled : filled (attr, b) = attr := by simp [filled, hb]
          simp only [List.map_cons, List.count_cons, hfilled, List.filterMap_cons, hb,
            Option.map_none]
          omega
      | some other =>
          have hfilled : filled (attr, b) = other := by simp [filled, hb]
          simp only [List.map_cons, List.count_cons, hfilled, List.filterMap_cons, hb,
            Option.map_some]
          omega

/-- Filling up the open columns gives the key, apart from the order, if and only if the explicit
columns permute the key attributes beside them. -/
theorem filled_perm_iff {key : List String} {bindings : List Binding}
    (h : bindings.length = key.length) :
    ((key.zip bindings).map filled).Perm key ↔
      ((named key bindings).map Prod.snd).Perm ((named key bindings).map Prod.fst) := by
  have hkey : (key.zip bindings).map Prod.fst = key := List.map_fst_zip (by omega)
  simp only [List.perm_iff_count]
  constructor
  · intro hperm name
    have hcount := count_filled name key bindings
    rw [hkey, hperm name] at hcount
    omega
  · intro hperm name
    have hcount := count_filled name key bindings
    rw [hkey, hperm name] at hcount
    omega

theorem referenced_complete {keyName target : String} {R : Entity} {position : Nat} {b : Binding}
    {attr : String} {rest : List String} (hkey : R.keyFields.drop position = attr :: rest) :
    (b.complete keyName target R position).1.referenced? = some (filled (attr, b)) := by
  obtain ⟨a, ha, rfl⟩ : ∃ a, R.keyAttributes[position]? = some a ∧ a.name = attr := by
    have hget : R.keyFields[position]? = some attr := by
      rw [← List.head?_drop, hkey]
      rfl
    rwa [Entity.keyFields, List.getElem?_map, Option.map_eq_some_iff] at hget
  rw [Binding.complete]
  cases hb : b.referenced? with
  | none => simp [ha, filled, hb]
  | some name => simp [filled, hb]

theorem referenced_completeBindings (keyName target : String) (R : Entity) {position : Nat}
    {bindings : List Binding} (h : bindings.length = (R.keyFields.drop position).length) :
    (completeBindings keyName target R position bindings).map (fun c => c.1.referenced?) =
      ((R.keyFields.drop position).zip bindings).map (some ∘ filled) := by
  induction bindings generalizing position with
  | nil => simp [completeBindings]
  | cons b bindings ih =>
      cases hkey : R.keyFields.drop position with
      | nil =>
          rw [hkey] at h
          cases h
      | cons attr rest =>
          have hrest : R.keyFields.drop (position + 1) = rest := by
            rw [← List.tail_drop, hkey, List.tail_cons]
          have hlength : bindings.length = (R.keyFields.drop (position + 1)).length := by
            rw [hkey, List.length_cons, List.length_cons] at h
            rw [hrest]
            omega
          rw [completeBindings, List.map_cons, referenced_complete hkey, ih hlength, hrest,
            List.zip_cons_cons, List.map_cons, Function.comp_apply]

theorem length_bindings_complete (fk : ForeignKey) (R : Entity) :
    (fk.complete R).1.bindings.length = fk.bindings.length := by
  have horigins := origins_completeBindings fk.name fk.referenced R 0 fk.bindings
  have hlength := congrArg List.length horigins
  simpa [complete] using hlength

/-- A completed key covers the referenced key if and only if its columns are aligned with it. -/
theorem covers_complete_iff (fk : ForeignKey) (R : Entity) :
    (fk.complete R).1.Covers R.keyFields ↔ fk.IsAligned R.keyFields := by
  have hfill (h : fk.bindings.length = (R.keyFields.drop 0).length) :
      (fk.complete R).1.bindings.map Binding.referenced? =
        ((R.keyFields.zip fk.bindings).map filled).map some := by
    rw [complete, List.map_map, List.map_map]
    exact referenced_completeBindings fk.name fk.referenced R h
  constructor
  · intro hcovers
    have hlength : fk.bindings.length = R.keyFields.length := by
      have hperm := hcovers.length_eq
      rwa [List.length_map, List.length_map, length_bindings_complete] at hperm
    refine ⟨hlength, (filled_perm_iff hlength).1 ?_⟩
    rw [Covers, hfill hlength] at hcovers
    exact (List.map_perm_map_iff fun _ _ => Option.some.inj).1 hcovers
  · intro haligned
    rw [Covers, hfill haligned.length_eq]
    exact ((filled_perm_iff haligned.length_eq).2 haligned.named_perm).map some

theorem length_le_of_open {keyName target : String} {R : Entity} {position : Nat}
    {bindings : List Binding} (hopen : ∀ b ∈ bindings, b.referenced? = none)
    (h : ∀ c ∈ completeBindings keyName target R position bindings, c.2 = none) :
    bindings.length ≤ R.keyFields.length - position := by
  induction bindings generalizing position with
  | nil => exact Nat.zero_le _
  | cons b bindings ih =>
      rw [completeBindings] at h
      have hbeside : position < R.keyFields.length := by
        have hb := h _ (List.mem_cons_self ..)
        rw [Binding.complete, hopen b (List.mem_cons_self ..)] at hb
        cases hkey : R.keyAttributes[position]? with
        | none =>
            rw [hkey] at hb
            cases hb
        | some a =>
            obtain ⟨hlt, -⟩ := List.getElem?_eq_some_iff.1 hkey
            rwa [Entity.keyFields, List.length_map]
      have hrest := ih (fun b hb => hopen b (List.mem_cons_of_mem _ hb))
        fun c hc => h c (List.mem_cons_of_mem _ hc)
      rw [List.length_cons]
      omega

theorem isImplicit_of_open {fk : ForeignKey} (hne : fk.bindings ≠ [])
    (hopen : ∀ b ∈ fk.bindings, b.referenced? = none) : fk.isImplicit = true := by
  obtain ⟨b, rest, hbindings⟩ := List.exists_cons_of_ne_nil hne
  have hb := hopen b (by simp [hbindings])
  simp [isImplicit, hbindings, hb]

theorem isAligned_of_open {fk : ForeignKey} {R : Entity} (h : (fk.complete R).2 = [])
    (hne : fk.bindings ≠ []) (hopen : ∀ b ∈ fk.bindings, b.referenced? = none) :
    fk.IsAligned R.keyFields := by
  obtain ⟨hcompleted, henough⟩ := complete_problems_eq_nil h
  have hnamed : named R.keyFields fk.bindings = [] := by
    rw [named, List.filterMap_eq_nil_iff]
    intro pair hpair
    rw [hopen pair.2 (List.of_mem_zip hpair).2, Option.map_none]
  have hle := length_le_of_open hopen hcompleted
  have hge := henough (isImplicit_of_open hne hopen)
  refine ⟨?_, ?_⟩
  · rw [Entity.keyFields, List.length_map] at hle ⊢
    omega
  · rw [hnamed]
    exact List.Perm.nil

end ForeignKey

def Problem.completedKey? : Problem → Option (String × String)
  | unknownAttribute keyName target _ | keylessEntity keyName target | moreColumns keyName target
  | fewerColumns keyName target => some (keyName, target)
  | _ => none

theorem Binding.completedKey?_complete {keyName target : String} {R : Entity} {position : Nat}
    {b : Binding} {p : Problem} (h : (b.complete keyName target R position).2 = some p) :
    p.completedKey? = some (keyName, target) := by
  rw [complete] at h
  split at h
  · split at h
    · cases h
    · obtain rfl := Option.some.inj h
      rfl
  · cases h
  · obtain rfl := Option.some.inj h
    split <;> rfl

theorem completedKey?_of_mem_completeBindings {keyName target : String} {R : Entity}
    {position : Nat} {bindings : List Binding} {c : Binding × Option Problem} {p : Problem}
    (hc : c ∈ completeBindings keyName target R position bindings) (hp : c.2 = some p) :
    p.completedKey? = some (keyName, target) := by
  induction bindings generalizing position with
  | nil => cases hc
  | cons b bindings ih =>
      rcases List.mem_cons.1 hc with rfl | hrest
      · exact Binding.completedKey?_complete hp
      · exact ih hrest

theorem ForeignKey.completedKey?_of_mem_complete {fk : ForeignKey} {R : Entity} {field : String}
    {p : Problem} (h : (field, p) ∈ (fk.complete R).2) :
    p.completedKey? = some (fk.name, fk.referenced) := by
  rcases List.mem_append.1 h with hfaulty | hshort
  · obtain ⟨c, hc, hproblem⟩ := List.mem_filterMap.1 hfaulty
    obtain ⟨p', hp', heq⟩ := Option.map_eq_some_iff.1 hproblem
    obtain ⟨-, rfl⟩ := Prod.mk.inj heq
    exact completedKey?_of_mem_completeBindings hc hp'
  · split at hshort
    · obtain ⟨field', -, heq⟩ := List.mem_map.1 hshort
      obtain ⟨-, rfl⟩ := Prod.mk.inj heq
      rfl
    · cases hshort

namespace Collection

variable {c : Collection} {e target : Entity} {fk : ForeignKey}

/-- No diagnostic of the built model is about a foreign key of the entity with this name and
target. -/
def IsSilentOn (c : Collection) (e : Entity) (fk : ForeignKey) : Prop :=
  ∀ d ∈ c.build.2, d.entity = e.name → d.problem.completedKey? ≠ some (fk.name, fk.referenced)

instance (c : Collection) (e : Entity) (fk : ForeignKey) : Decidable (c.IsSilentOn e fk) :=
  inferInstanceAs (Decidable (∀ _ ∈ _, _))

theorem IsSilentOn.complete_problems (h : c.IsSilentOn e fk) (he : e ∈ c.model.toList)
    (hfk : fk ∈ e.foreignKeys) (htarget : c.model.entity? fk.referenced = some target) :
    (fk.complete target).2 = [] := by
  rw [List.eq_nil_iff_forall_not_mem]
  rintro ⟨field, problem⟩ hproblem
  have hcompleteIn : fk.completeIn c.model = fk.complete target := by
    rw [ForeignKey.completeIn, htarget]
  have hreported : ⟨e.name, some field, none, problem⟩ ∈ c.build.2 := by
    refine List.mem_append_right _ (List.mem_flatMap.2 ⟨e, he, List.mem_flatMap.2 ⟨fk, hfk, ?_⟩⟩)
    rw [hcompleteIn]
    exact List.mem_map.2 ⟨(field, problem), hproblem, rfl⟩
  exact h _ hreported rfl (ForeignKey.completedKey?_of_mem_complete hproblem)

/-- A foreign key with an open column about which nothing is reported has at least as many columns
as the referenced key. It covers that key if and only if its columns are aligned with it, and
always does if all of them are open. -/
theorem covers_build_iff (he : e ∈ c.model.toList) (hfk : fk ∈ e.foreignKeys)
    (htarget : c.model.entity? fk.referenced = some target) (hopen : fk.isImplicit = true)
    (hsilent : c.IsSilentOn e fk) :
    (c.model.completeEntity e ∈ c.build.1.toList ∧
        (fk.completeIn c.model).1 ∈ (c.model.completeEntity e).foreignKeys ∧
        (c.build.1.entity? fk.referenced).map Entity.keyFields = some target.keyFields) ∧
      target.keyFields.length ≤ fk.bindings.length ∧
      ((fk.completeIn c.model).1.Covers target.keyFields ↔ fk.IsAligned target.keyFields) ∧
      ((∀ b ∈ fk.bindings, b.referenced? = none) →
        (fk.completeIn c.model).1.Covers target.keyFields) := by
  have hproblems := hsilent.complete_problems he hfk htarget
  have hcompleteIn : fk.completeIn c.model = fk.complete target := by
    rw [ForeignKey.completeIn, htarget]
  have hne : fk.bindings ≠ [] := by
    intro hnil
    rw [ForeignKey.isImplicit, hnil] at hopen
    cases hopen
  have hbuilt : c.build.1.entity? fk.referenced = some (c.model.completeEntity target) := by
    refine (Model.entity?_complete c.model fk.referenced).trans ?_
    rw [htarget, Option.map_some]
  refine ⟨⟨Model.mem_toList_complete_iff.2 ⟨e, he, rfl⟩, List.mem_map_of_mem hfk, ?_⟩, ?_, ?_, ?_⟩
  · rw [hbuilt]
    rfl
  · rw [Entity.keyFields, List.length_map]
    exact (ForeignKey.complete_problems_eq_nil hproblems).2 hopen
  · rw [hcompleteIn]
    exact fk.covers_complete_iff target
  · intro hall
    rw [hcompleteIn]
    exact (fk.covers_complete_iff target).2 (ForeignKey.isAligned_of_open hproblems hne hall)

def seat : Entity :=
  { Entity.ofName "Seat" with
    attributes := ["row", "number"].map fun name =>
      { Attribute.ofType name .integer with isKey := true } }

def seatKey (bindings : List Binding) : ForeignKey := ⟨"FK", "Ticket", "Seat", bindings, []⟩

def ticket (bindings : List Binding) : Entity :=
  { Entity.ofName "Ticket" with
    attributes := ["a", "b"].map fun name => Attribute.ofType name .integer
    foreignKeys := [seatKey bindings] }

def seatAndTicket (bindings : List Binding) : Collection :=
  [seat, ticket bindings].foldl add .empty

theorem covers_build_iff_seat :
    ((seatKey [⟨"a", some "row"⟩, ⟨"b", none⟩]).completeIn
      (seatAndTicket [⟨"a", some "row"⟩, ⟨"b", none⟩]).model).1.Covers ["row", "number"] := by
  have htarget : (seatAndTicket [⟨"a", some "row"⟩, ⟨"b", none⟩]).model.entity? "Seat" =
      some seat := by decide
  have hcovers := covers_build_iff (c := seatAndTicket [⟨"a", some "row"⟩, ⟨"b", none⟩])
    (e := ticket [⟨"a", some "row"⟩, ⟨"b", none⟩]) (by decide)
    (List.mem_singleton_self (seatKey [⟨"a", some "row"⟩, ⟨"b", none⟩])) htarget (by decide)
    (by decide)
  exact hcovers.2.2.1.2 (by decide)

/-- Silence does not mean that the key is covered: here both columns stand for the number, and
none for the row. -/
theorem not_covers_of_isSilentOn :
    ¬ ∀ (c : Collection) (e target : Entity) (fk : ForeignKey), e ∈ c.model.toList →
      fk ∈ e.foreignKeys → c.model.entity? fk.referenced = some target →
      fk.isImplicit = true → c.IsSilentOn e fk →
      (fk.completeIn c.model).1.Covers target.keyFields := by
  intro h
  have hcovers := h (seatAndTicket [⟨"a", some "number"⟩, ⟨"b", none⟩])
    (ticket [⟨"a", some "number"⟩, ⟨"b", none⟩]) seat
    (seatKey [⟨"a", some "number"⟩, ⟨"b", none⟩]) (by decide) (by decide) (by decide) (by decide)
    (by decide)
  exact absurd hcovers (by decide)

end Collection

end EntityModel
