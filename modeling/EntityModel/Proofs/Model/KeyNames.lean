import EntityModel.Model.KeyNames
import EntityModel.Proofs.Entity.Declaration
import EntityModel.Proofs.Grouping

/-!
# Unambiguous names of foreign keys

The check of key names is silent exactly if all occurrences of a name have the same ends. In a
model whose entities keep their own keys apart, a name then stands for one key.
-/

namespace EntityModel

namespace KeyOccurrence

theorem isAmbiguous_eq_false_iff {os : List KeyOccurrence} :
    isAmbiguous os = false ↔ ∀ o ∈ os, ∀ p ∈ os, o.ends = p.ends := by
  cases os with
  | nil => simp [isAmbiguous]
  | cons first rest =>
      rw [isAmbiguous, List.any_eq_false]
      simp only [bne_iff_ne, ne_eq, Classical.not_not]
      constructor
      · intro hrest o ho p hp
        have hfirst : ∀ q ∈ first :: rest, q.ends = first.ends := by
          intro q hq
          rcases List.mem_cons.1 hq with rfl | hq
          · rfl
          · exact hrest q hq
        rw [hfirst o ho, hfirst p hp]
      · intro hall p hp
        exact hall p (List.mem_cons_of_mem _ hp) first (List.mem_cons_self ..)

theorem mem_ofName_iff {os : List KeyOccurrence} {o : KeyOccurrence} {name : String} :
    o ∈ ofName os name ↔ o ∈ os ∧ o.keyName = name := by
  rw [ofName, List.mem_filter, beq_iff_eq]

/-- Some occurrence of the same name has other ends. -/
def IsAmbiguousIn (os : List KeyOccurrence) (o : KeyOccurrence) : Prop :=
  ∃ p ∈ os, p.keyName = o.keyName ∧ p.ends ≠ o.ends

instance (os : List KeyOccurrence) (o : KeyOccurrence) : Decidable (o.IsAmbiguousIn os) :=
  inferInstanceAs (Decidable (∃ _ ∈ _, _))

theorem isAmbiguous_ofName_iff {os : List KeyOccurrence} {o : KeyOccurrence} (ho : o ∈ os) :
    isAmbiguous (ofName os o.keyName) = true ↔ o.IsAmbiguousIn os := by
  have hmem : o ∈ ofName os o.keyName := mem_ofName_iff.2 ⟨ho, rfl⟩
  constructor
  · intro hambiguous
    apply Classical.byContradiction
    intro hclear
    -- Without another end than those of `o`, the ends in its group are all the same.
    have hends : ∀ p ∈ ofName os o.keyName, p.ends = o.ends := by
      intro p hp
      obtain ⟨hpos, hname⟩ := mem_ofName_iff.1 hp
      apply Classical.byContradiction
      intro hne
      exact hclear ⟨p, hpos, hname, hne⟩
    have hfalse : isAmbiguous (ofName os o.keyName) = false := by
      rw [isAmbiguous_eq_false_iff]
      intro p hp q hq
      rw [hends p hp, hends q hq]
    rw [hfalse] at hambiguous
    cases hambiguous
  · rintro ⟨p, hp, hname, hne⟩
    rw [← Bool.not_eq_false, isAmbiguous_eq_false_iff]
    intro hall
    exact hne (hall p (mem_ofName_iff.2 ⟨hp, hname⟩) o hmem)

end KeyOccurrence

namespace Model

open KeyOccurrence (ofName isAmbiguous isAmbiguous_ofName_iff)

variable {m : Model} {e : Entity}

theorem checkKeyNames_eq (m : Model) :
    m.checkKeyNames = ((m.keyOccurrences.map KeyOccurrence.keyName).eraseDups.flatMap
      (ofName (m.keyOccurrences.filter fun o => o.IsAmbiguousIn m.keyOccurrences))).map
        KeyOccurrence.diagnostic := by
  generalize hos : m.keyOccurrences = os
  have hgroup (name : String) :
      (if isAmbiguous (ofName os name) then (ofName os name).map KeyOccurrence.diagnostic else []) =
        (ofName (os.filter fun o => o.IsAmbiguousIn os) name).map KeyOccurrence.diagnostic := by
    have hsame : ∀ o ∈ os, (o.keyName == name && decide (o.IsAmbiguousIn os)) =
        (o.keyName == name && isAmbiguous (ofName os name)) := by
      intro o ho
      cases hname : o.keyName == name with
      | false => rfl
      | true =>
          obtain rfl := beq_iff_eq.1 hname
          rw [Bool.true_and, Bool.true_and, Bool.eq_iff_iff, decide_eq_true_eq]
          exact (isAmbiguous_ofName_iff ho).symm
    have hfilter : ofName (os.filter fun o => o.IsAmbiguousIn os) name =
        os.filter fun o => o.keyName == name && isAmbiguous (ofName os name) := by
      rw [ofName, List.filter_filter, List.filter_congr hsame]
    rw [hfilter]
    cases isAmbiguous (ofName os name) <;> simp [ofName]
  rw [List.map_flatMap, checkKeyNames, hos, List.flatMap_map]
  exact congrArg (List.flatMap · _) (funext hgroup)

/-- The check reports each occurrence whose name is ambiguous once, those of one name together. -/
theorem checkKeyNames_perm (m : Model) :
    m.checkKeyNames.Perm ((m.keyOccurrences.filter fun o => o.IsAmbiguousIn m.keyOccurrences).map
      KeyOccurrence.diagnostic) := by
  rw [checkKeyNames_eq]
  refine (flatMap_filter_perm (nodup_eraseDups _) KeyOccurrence.keyName fun o ho => ?_).map _
  exact List.mem_eraseDups.2 (List.mem_map_of_mem (List.mem_filter.1 ho).1)

theorem mem_checkKeyNames_iff {d : Diagnostic} :
    d ∈ m.checkKeyNames ↔
      ∃ o ∈ m.keyOccurrences, o.IsAmbiguousIn m.keyOccurrences ∧ o.diagnostic = d := by
  rw [m.checkKeyNames_perm.mem_iff, List.mem_map]
  simp only [List.mem_filter, decide_eq_true_eq, and_assoc]

theorem checkKeyNames_eq_nil_iff :
    m.checkKeyNames = [] ↔
      ∀ o ∈ m.keyOccurrences, ∀ p ∈ m.keyOccurrences, o.keyName = p.keyName → o.ends = p.ends := by
  constructor
  · intro h o ho p hp hname
    apply Classical.byContradiction
    intro hne
    have hreported : o.diagnostic ∈ m.checkKeyNames :=
      mem_checkKeyNames_iff.2 ⟨o, ho, ⟨p, hp, hname.symm, Ne.symm hne⟩, rfl⟩
    rw [h] at hreported
    cases hreported
  · intro h
    rw [List.eq_nil_iff_forall_not_mem]
    intro d hd
    obtain ⟨o, ho, ⟨p, hp, hname, hne⟩, -⟩ := mem_checkKeyNames_iff.1 hd
    exact hne (h p hp o ho hname)

theorem exists_occurrence (he : e ∈ m.toList) {fk : ForeignKey} (hfk : fk ∈ e.foreignKeys)
    (hbound : fk.bindings ≠ []) :
    ∃ o ∈ m.keyOccurrences, o.keyName = fk.name ∧ o.ends = (e.name, fk.referenced) := by
  obtain ⟨b, rest, hbindings⟩ := List.exists_cons_of_ne_nil hbound
  refine ⟨⟨fk.name, e.name, fk.referenced, b.origin, (e.attribute? b.origin).bind Attribute.line?⟩,
    ?_, rfl, rfl⟩
  rw [keyOccurrences, List.mem_flatMap]
  refine ⟨e, he, ?_⟩
  rw [List.mem_flatMap]
  refine ⟨fk, hfk, ?_⟩
  rw [hbindings, List.map_cons]
  exact List.mem_cons_self ..

theorem exists_key_of_mem_keyOccurrences {o : KeyOccurrence} (ho : o ∈ m.keyOccurrences) :
    ∃ e ∈ m.toList, ∃ fk ∈ e.foreignKeys, o.keyName = fk.name ∧ o.ends = (e.name, fk.referenced) := by
  rw [keyOccurrences, List.mem_flatMap] at ho
  obtain ⟨e, he, ho⟩ := ho
  obtain ⟨fk, hfk, ho⟩ := List.mem_flatMap.1 ho
  obtain ⟨b, -, rfl⟩ := List.mem_map.1 ho
  exact ⟨e, he, fk, hfk, rfl, rfl⟩

def keyNames (m : Model) : List String :=
  m.toList.flatMap fun e => e.foreignKeys.map ForeignKey.name

theorem nodup_keyNames (hkeyed : m.IsKeyedByName)
    (hbound : ∀ e ∈ m.toList, ∀ fk ∈ e.foreignKeys, fk.bindings ≠ [])
    (hends : ∀ e ∈ m.toList, e.keyEnds.Nodup) (hcheck : m.checkKeyNames = []) :
    m.keyNames.Nodup := by
  have hsame {e e' : Entity} (he : e ∈ m.toList) (he' : e' ∈ m.toList) {fk fk' : ForeignKey}
      (hfk : fk ∈ e.foreignKeys) (hfk' : fk' ∈ e'.foreignKeys) (hname : fk.name = fk'.name) :
      e.name = e'.name ∧ fk.referenced = fk'.referenced := by
    obtain ⟨o, ho, honame, hoends⟩ := exists_occurrence he hfk (hbound e he fk hfk)
    obtain ⟨p, hp, hpname, hpends⟩ := exists_occurrence he' hfk' (hbound e' he' fk' hfk')
    have heq := checkKeyNames_eq_nil_iff.1 hcheck o ho p hp (by rw [honame, hpname, hname])
    rw [hoends, hpends, Prod.mk.injEq] at heq
    exact heq
  rw [keyNames, List.nodup_flatMap]
  refine ⟨fun e he => ?_, ?_⟩
  · -- within one entity, equal names have equal targets
    rw [List.Nodup, List.pairwise_map]
    have hpairs := hends e he
    rw [Entity.keyEnds, List.Nodup, List.pairwise_map] at hpairs
    refine hpairs.imp_of_mem fun {fk fk'} hfk hfk' hne hname => hne ?_
    rw [hname, (hsame he he hfk hfk' hname).2]
  · have hnames := hkeyed.nodup_names
    rw [List.Nodup, List.pairwise_map] at hnames
    refine hnames.imp_of_mem fun {e e'} he he' hne name hname hname' => hne ?_
    obtain ⟨fk, hfk, rfl⟩ := List.mem_map.1 hname
    obtain ⟨fk', hfk', heq⟩ := List.mem_map.1 hname'
    exact (hsame he he' hfk hfk' heq.symm).1

end Model

end EntityModel
