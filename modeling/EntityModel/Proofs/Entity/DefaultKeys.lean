import EntityModel.Proofs.Entity.BoundFields

/-!
# Default names of foreign keys

A foreign key that is not given a name is named after its entity and its field. In one entity such
names differ, so that each of these keys has one column. In two entities they can be the same,
since both parts may hold the underscore that joins them.
-/

namespace EntityModel

/-- The second entity name goes on after the first with an underscore and the text that the first
field begins with: both pairs make the same key name. -/
def NamesOverlap (entity field entity' field' : String) : Prop :=
  ∃ middle, entity' = entity ++ "_" ++ middle ∧ field = middle ++ "_" ++ field'

variable {entity field entity' field' : String}

theorem toList_defaultKeyName (entity field : String) :
    (defaultKeyName entity field).toList =
      "FK_".toList ++ (entity.toList ++ '_' :: field.toList) := by
  simp [defaultKeyName]

theorem NamesOverlap.defaultKeyName_eq (h : NamesOverlap entity field entity' field') :
    defaultKeyName entity field = defaultKeyName entity' field' := by
  obtain ⟨middle, rfl, rfl⟩ := h
  simp only [defaultKeyName, String.append_assoc]

theorem NamesOverlap.ne (h : NamesOverlap entity field entity' field') : entity ≠ entity' := by
  obtain ⟨middle, rfl, -⟩ := h
  intro heq
  have hlength := congrArg String.length heq
  simp only [String.length_append] at hlength
  have hone : "_".length = 1 := rfl
  omega

private theorem namesOverlap_of_append {rest : List Char}
    (hentity : entity'.toList = entity.toList ++ rest)
    (hfield : '_' :: field.toList = rest ++ '_' :: field'.toList) :
    (entity = entity' ∧ field = field') ∨ NamesOverlap entity field entity' field' := by
  cases rest with
  | nil =>
      simp only [List.append_nil, String.toList_inj] at hentity
      simp only [List.nil_append, List.cons.injEq, true_and, String.toList_inj] at hfield
      exact .inl ⟨hentity.symm, hfield⟩
  | cons c middle =>
      simp only [List.cons_append, List.cons.injEq] at hfield
      obtain ⟨rfl, hfield⟩ := hfield
      refine .inr ⟨String.ofList middle, ?_, ?_⟩
      · apply String.toList_injective
        simp [hentity]
      · apply String.toList_injective
        simp [hfield]

/-- Two default names are the same if they are made of the same names, or if the names overlap. -/
theorem defaultKeyName_eq_iff :
    defaultKeyName entity field = defaultKeyName entity' field' ↔
      (entity = entity' ∧ field = field') ∨ NamesOverlap entity field entity' field' ∨
        NamesOverlap entity' field' entity field := by
  constructor
  · intro h
    rw [← String.toList_inj, toList_defaultKeyName, toList_defaultKeyName,
      List.append_right_inj, List.append_eq_append_iff] at h
    rcases h with ⟨rest, hentity, hfield⟩ | ⟨rest, hentity, hfield⟩
    · rcases namesOverlap_of_append hentity hfield with heq | hoverlap
      · exact .inl heq
      · exact .inr (.inl hoverlap)
    · rcases namesOverlap_of_append hentity hfield with ⟨rfl, rfl⟩ | hoverlap
      · exact .inl ⟨rfl, rfl⟩
      · exact .inr (.inr hoverlap)
  · rintro (⟨rfl, rfl⟩ | hoverlap | hoverlap)
    · rfl
    · exact hoverlap.defaultKeyName_eq
    · exact hoverlap.defaultKeyName_eq.symm

namespace Statement

def readableUses (st : Statement) : List AnnotationUse :=
  st.annotations.filterMap fun e => (AnnotationUse.ofText e.text (some e.line)).toOption

def NamesNoKey (st : Statement) : Prop :=
  ∀ use ∈ st.readableUses, use.kind = .foreignKey → use.arguments.values.length = 1

instance (st : Statement) : Decidable st.NamesNoKey :=
  inferInstanceAs (Decidable (∀ _ ∈ _, _ → _))

end Statement

theorem AnnotationUse.keyName?_eq_none {use : AnnotationUse} {target : ForeignKeyTarget}
    (htarget : use.foreignKeyTarget? = some target) (hone : use.arguments.values.length = 1) :
    target.keyName? = none := by
  obtain ⟨reference, hvalues⟩ := List.length_eq_one_iff.1 hone
  rw [foreignKeyTarget?, hvalues] at htarget
  split at htarget
  · obtain rfl := Option.some.inj htarget
    rw [ForeignKeyTarget.ofReference]
    split <;> rfl
  · rename_i heq
    cases heq
  · cases htarget

namespace Account

variable {name : String} {a : Account}

private theorem mem_readableUses_of_applied {st : Statement} {fates : List Fate}
    (h : st.annotations.Forall₂ (Fate.OfAnnotation .attribute) fates) {use : AnnotationUse}
    (huse : use ∈ fates.filterMap Fate.applied?) : use ∈ st.readableUses := by
  obtain ⟨fate, hfate, happlied⟩ := List.mem_filterMap.1 huse
  obtain ⟨e, he, hof⟩ := exists_of_mem_forall₂ h hfate
  cases hof with
  | applied hread _ =>
      obtain rfl := Option.some.inj happlied
      exact List.mem_filterMap.2 ⟨e, he, by rw [hread]; rfl⟩
  | kept | rejected => cases happlied

theorem IsSound.key?_name (h : a.IsSound name) (hnames : a.statement.NamesNoKey)
    {ends : String × String} {b : Binding} (hkey : a.key? name = some (ends, b)) :
    ends.1 = defaultKeyName name b.origin := by
  cases h with
  | ofUnknownType | ofTakenName | ofBlock => cases hkey
  | ofField hst htype hannotations htags hkinds hnodup hkept =>
      simp only [key?, Option.map_eq_some_iff, Option.bind_eq_some_iff] at hkey
      obtain ⟨target, ⟨use, hfound, htarget⟩, hpair⟩ := hkey
      have hmem := mem_readableUses_of_applied hannotations (List.mem_of_find?_eq_some hfound)
      have hone := hnames use hmem (by simpa using List.find?_some hfound)
      rw [AnnotationUse.keyName?_eq_none htarget hone] at hpair
      obtain ⟨rfl, rfl⟩ := Prod.mk.inj hpair
      rfl

end Account

namespace Entity

/-- Every key has one column and the default name for it, and no attribute carries two. -/
structure HasDefaultKeys (e : Entity) : Prop where
  keys : ∀ fk ∈ e.foreignKeys,
    ∃ b, fk.bindings = [b] ∧ fk.name = defaultKeyName e.name b.origin
  nodup_boundFields : e.boundFields.Nodup

theorem hasDefaultKeys_ofStatements (name : String) {statements : List Statement}
    (h : ∀ st ∈ statements, st.NamesNoKey) :
    (ofStatements name statements).1.HasDefaultKeys := by
  obtain ⟨hagree, hnodup⟩ := keysAgree_ofStatements name statements
  obtain ⟨accounts, hstatements, haccounts⟩ := Assembly.exists_balances name statements
  have hentity : (ofStatements name statements).1 = ofAccounts name accounts := haccounts.entity
  have hname : (ofStatements name statements).1.name = name := by
    rw [hentity, name_ofAccounts]
  refine ⟨fun fk hfk => ?_, hnodup⟩
  have hdefault : ∀ b ∈ fk.bindings, fk.name = defaultKeyName name b.origin := by
    intro b hb
    rw [hentity] at hfk
    obtain ⟨a, ha, hkey⟩ := exists_account_of_mem_bindings hfk hb
    have hst : a.statement ∈ statements := by
      rw [← hstatements]
      exact List.mem_map_of_mem ha
    exact (haccounts.areExact.sound a ha).key?_name (h a.statement hst) hkey
  have hcolumns : (fk.bindings.map Binding.origin).Nodup := (List.nodup_flatMap.1 hnodup).1 fk hfk
  obtain ⟨b, more, hbindings⟩ := List.exists_cons_of_ne_nil (hagree.bindings_ne_nil fk hfk)
  rw [hbindings] at hdefault hcolumns
  refine ⟨b, ?_, ?_⟩
  · cases more with
    | nil => exact hbindings
    | cons b' more =>
        have hsame : defaultKeyName name b.origin = defaultKeyName name b'.origin :=
          (hdefault b (by simp)).symm.trans (hdefault b' (by simp))
        have horigin : b.origin = b'.origin := by
          rcases defaultKeyName_eq_iff.1 hsame with ⟨-, horigin⟩ | hoverlap | hoverlap
          · exact horigin
          · exact absurd rfl hoverlap.ne
          · exact absurd rfl hoverlap.ne
        simp [horigin] at hcolumns
  · rw [hname]
    exact hdefault b (List.mem_cons_self ..)

end Entity

end EntityModel
