import EntityModel.Proofs.Entity.KeptAnnotations

/-!
# Declared foreign keys

A field whose foreign key can be read declares it: the entity has a key with the name and target
that the annotation gives, and the key has the column of the field. What the field brings for the
link stays with the key, or is reported because the key has one of its kind already.
-/

namespace EntityModel

/-- The key is the one that the field declares with this target. It keeps each annotation for the
link, unless it keeps another one of the kind; then the annotation is reported. -/
structure ForeignKey.Receives (fk : ForeignKey) (entity : String) (field : Statement)
    (target : ForeignKeyTarget) (ds : Diagnostics) : Prop where
  name : fk.name = target.keyName?.getD (defaultKeyName entity field.name)
  origin : fk.origin = entity
  referenced : fk.referenced = target.entity
  binding : ⟨field.name, target.attribute?⟩ ∈ fk.bindings
  linkUses : ∀ use ∈ field.linkUses, use ∈ fk.linkAnnotations ∨
    (∃ other ∈ fk.linkAnnotations, other.kind = use.kind) ∧
      ⟨entity, some field.name, some (use.line?.getD field.line),
        .repeatedOnKey use.kind fk.name⟩ ∈ ds

structure Entity.DeclaresKey (e : Entity) (field : Statement) (target : ForeignKeyTarget)
    (ds : Diagnostics) : Prop where
  attributes : ∃ a ∈ e.attributes,
    a.name = field.name ∧ a.line? = some field.line ∧ a.isForeignKey = true
  foreignKeys : ∃ fk ∈ e.foreignKeys, fk.Receives e.name field target ds

theorem Statement.exists_type_of_mem_declaring {field : Statement} {statements : List Statement}
    (h : field ∈ Statement.declaring statements) :
    ∃ type, NeutralType.ofName? field.typeName = some type := by
  obtain ⟨d, hd, rfl⟩ := List.mem_map.1 h
  obtain ⟨st, -, hst⟩ := List.mem_filterMap.1 (mem_of_mem_eraseDupsBy hd)
  rw [Statement.declaration?] at hst
  split at hst
  · cases hst
  · obtain ⟨type, htype, rfl⟩ := Option.map_eq_some_iff.1 hst
    exact ⟨type, htype⟩

theorem Statement.keyEnds_eq {field : Statement} {target : ForeignKeyTarget}
    (htarget : field.target? = some target) (name : String) :
    field.keyEnds name =
      (target.keyName?.getD (defaultKeyName name field.name), target.entity) := by
  rw [keyEnds, htarget]

namespace Account

variable {name : String} {front : List Account} {st field : Statement} {type : NeutralType}
  {target : ForeignKeyTarget} {use : AnnotationUse}

theorem ofStatement_eq_ofField (h : (ofStatement name front st).declaration? = some (field, type)) :
    ofStatement name front st = ofField name front field type := by
  revert h
  rw [ofStatement]
  split
  · intro h
    cases h
  · split
    · intro h
      cases h
    · split
      · intro h
        cases h
      · intro h
        obtain ⟨rfl, rfl⟩ := Prod.mk.inj (Option.some.inj h)
        rfl

theorem exists_ofField_of_mem_declaring (name : String) {statements : List Statement}
    (h : field ∈ Statement.declaring statements) :
    ∃ front type back,
      ofStatements name statements = front ++ ofField name front field type :: back := by
  have hdeclarations := (Assembly.balances_ofStatements name statements).areExact.declarations
  rw [statement_ofStatements] at hdeclarations
  rw [Statement.declaring, ← hdeclarations] at h
  obtain ⟨⟨_, type⟩, hd, rfl⟩ := List.mem_map.1 h
  obtain ⟨a, ha, hdeclaration⟩ := List.mem_filterMap.1 hd
  obtain ⟨front, back, hsplit⟩ := List.append_of_mem ha
  have hstatement := eq_ofStatement_of_ofStatements hsplit
  rw [hstatement] at hdeclaration hsplit
  rw [ofStatement_eq_ofField hdeclaration] at hsplit
  exact ⟨front, type, back, hsplit⟩

theorem key?_ofField (htarget : field.target? = some target) :
    (ofField name front field type).key? name =
      some (field.keyEnds name, ⟨field.name, target.attribute?⟩) := by
  have hsettles := field.settles_fates (field.keyEnds name).1
    (Entity.carries name front (field.keyEnds name))
  rw [Statement.keyEnds_eq htarget]
  exact (Assembly.key?_of_settles hsettles).trans (by rw [htarget, Option.map_some])

theorem mem_keptOn_ofField (htarget : field.target? = some target) (huse : use ∈ field.linkUses)
    (hnew : Entity.carries name front (field.keyEnds name) use = false) :
    use ∈ (ofField name front field type).keptOn name (field.keyEnds name) := by
  have hsettles := field.settles_fates (field.keyEnds name).1
    (Entity.carries name front (field.keyEnds name))
  rw [keptOn_of_key? (key?_ofField htarget), if_pos rfl]
  have hkept : (ofField name front field type).fates.filterMap Fate.kept? =
    (field.usesFor .onLink).filter fun use =>
      !Entity.carries name front (field.keyEnds name) use := hsettles.kept
  rw [hkept, Statement.usesFor_onLink (by rw [htarget]; rfl)]
  exact List.mem_filter.2 ⟨huse, by rw [hnew]; rfl⟩

theorem mem_diagnostics_ofField (htarget : field.target? = some target)
    (huse : use ∈ field.linkUses)
    (hold : Entity.carries name front (field.keyEnds name) use = true) :
    ⟨name, some field.name, some (use.line?.getD field.line),
        .repeatedOnKey use.kind (field.keyEnds name).1⟩ ∈
      (ofField name front field type).diagnostics name := by
  have hsettles := field.settles_fates (field.keyEnds name).1
    (Entity.carries name front (field.keyEnds name))
  have hrejection : (⟨use.line?.getD field.line,
      .repeatedOnKey use.kind (field.keyEnds name).1⟩ : Rejection) ∈
        (ofField name front field type).rejections := by
    apply hsettles.rejections.mem_iff.2
    apply List.mem_append_right
    rw [Statement.usesFor_onLink (by rw [htarget]; rfl)]
    exact List.mem_map.2 ⟨use, List.mem_filter.2 ⟨huse, hold⟩, rfl⟩
  exact List.mem_map.2 ⟨_, hrejection, rfl⟩

end Account

namespace Entity

variable {name : String} {statements : List Statement} {front back : List Account}
  {field : Statement} {type : NeutralType} {target : ForeignKeyTarget}

theorem receives_keyOf (htarget : field.target? = some target)
    (hsplit : Account.ofStatements name statements =
      front ++ Account.ofField name front field type :: back) :
    (keyOf name (Account.ofStatements name statements) (field.keyEnds name)).Receives name field
      target (ofStatements name statements).2 := by
  have hbalances := Assembly.balances_ofStatements name statements
  have hmem : Account.ofField name front field type ∈ Account.ofStatements name statements := by
    rw [hsplit]
    simp
  have hends := Statement.keyEnds_eq htarget name
  refine ⟨by rw [keyOf, hends], rfl, by rw [keyOf, hends], ?_, fun use huse => ?_⟩
  · refine List.mem_filterMap.2 ⟨_, hmem, ?_⟩
    rw [Account.bindingOn, Account.key?_ofField htarget]
    simp
  · cases hcarried : carries name front (field.keyEnds name) use with
    | false =>
        exact .inl (List.mem_flatMap.2 ⟨_, hmem, Account.mem_keptOn_ofField htarget huse hcarried⟩)
    | true =>
        refine .inr ⟨?_, ?_⟩
        · obtain ⟨other, hother, hkind⟩ := List.any_eq_true.1 hcarried
          refine ⟨other, ?_, beq_iff_eq.1 hkind⟩
          rw [keyOf, hsplit, List.flatMap_append]
          exact List.mem_append_left _ hother
        · apply hbalances.diagnostics.mem_iff.2
          exact List.mem_flatMap.2
            ⟨_, hmem, Account.mem_diagnostics_ofField htarget huse hcarried⟩

theorem exists_attribute_of_mem_declaring (hfield : field ∈ Statement.declaring statements)
    (htarget : field.target? = some target) :
    ∃ a ∈ (ofStatements name statements).1.attributes,
      a.name = field.name ∧ a.line? = some field.line ∧ a.isForeignKey = true := by
  obtain ⟨type, htype⟩ := Statement.exists_type_of_mem_declaring hfield
  have hframe := Assembly.frame_fieldAttribute field type (field.usesFor .onAttribute) field.tagUses
  rw [attributes_ofStatements]
  refine ⟨_, List.mem_filterMap.2 ⟨field, hfield, by rw [Statement.attribute?, htype]; rfl⟩, ?_⟩
  refine ⟨?_, hframe.2.1, by rw [htarget]; rfl⟩
  exact Assembly.name_fieldAttribute field type (field.usesFor .onAttribute) field.tagUses

theorem declaresKey_of_target? (hfield : field ∈ Statement.declaring statements)
    (htarget : field.target? = some target) :
    (ofStatements name statements).1.DeclaresKey field target (ofStatements name statements).2 := by
  obtain ⟨front, type, back, hsplit⟩ := Account.exists_ofField_of_mem_declaring name hfield
  have hentity : (ofStatements name statements).1 =
      ofAccounts name (Account.ofStatements name statements) :=
    (Assembly.balances_ofStatements name statements).entity
  have hends : (Account.ofField name front field type).keyEnds? name = some (field.keyEnds name) :=
    Account.keyEnds?_of_key? (Account.key?_ofField htarget)
  have hkey : keyOf name (Account.ofStatements name statements) (field.keyEnds name) ∈
      (ofStatements name statements).1.foreignKeys := by
    rw [hentity]
    apply List.mem_map_of_mem
    apply List.mem_eraseDups.2
    exact List.mem_filterMap.2 ⟨_, by rw [hsplit]; simp, hends⟩
  have hreceives := receives_keyOf htarget hsplit
  refine ⟨exists_attribute_of_mem_declaring hfield htarget, _, hkey, ?_⟩
  rw [(isStated_ofStatements name statements).2]
  exact hreceives

theorem names_ofStatements (name : String) (statements : List Statement) :
    (ofStatements name statements).1.attributes.map Attribute.name =
      (Statement.declaring statements).map Statement.name := by
  have hbalances := Assembly.balances_ofStatements name statements
  have hentity : (ofStatements name statements).1 =
      ofAccounts name (Account.ofStatements name statements) := hbalances.entity
  have hdeclarations := hbalances.areExact.declarations
  rw [Account.statement_ofStatements] at hdeclarations
  have hnames := congrArg (List.map Prod.fst)
    (@declared_ofAccounts name (Account.ofStatements name statements))
  rw [hentity, Statement.declaring, ← hdeclarations, List.map_map]
  rw [List.map_map, List.map_map] at hnames
  exact hnames

/-- Every foreign key that can be read refers to a target: the check and the reading agree. So each
statement that becomes an attribute and has a foreign key declares it with that target, and nothing
that it brings for the link is lost. -/
theorem declaresKey_ofStatements :
    (∀ text line? use, AnnotationUse.ofText text line? = .ok use → use.kind = .foreignKey →
        ∃ target, use.RefersTo target) ∧
      ∀ name statements,
        (ofStatements name statements).1.attributes.map Attribute.name =
            (Statement.declaring statements).map Statement.name ∧
          ∀ field ∈ Statement.declaring statements,
            ∀ use ∈ field.uses, use.kind = .foreignKey →
              ∃ target, use.RefersTo target ∧
                (ofStatements name statements).1.DeclaresKey field target
                  (ofStatements name statements).2 := by
  refine ⟨fun text line? use hread hkind => AnnotationUse.exists_refersTo hread hkind,
    fun name statements => ⟨names_ofStatements name statements, ?_⟩⟩
  intro field hfield use huse hkind
  obtain ⟨e, -, hread⟩ :=
    exists_of_mem_accepted (isOutcome_annotationOutcomes field.annotations) huse
  obtain ⟨target, htarget⟩ := AnnotationUse.exists_refersTo hread hkind
  have hfieldTarget := (field.target?_eq huse hkind).trans htarget.target?
  exact ⟨target, htarget, declaresKey_of_target? hfield hfieldTarget⟩

def customerField : Statement :=
  ⟨"customer", "Integer", [⟨"FK(Customer.id)", 3⟩, ⟨"Cascade(ALL)", 4⟩], [], 3⟩

theorem declaresKey_ofStatements_customer :
    ∃ use : AnnotationUse, AnnotationUse.ofText "FK(Customer.id)" (some 3) = .ok use ∧
      use.kind = .foreignKey ∧ customerField ∈ Statement.declaring [customerField] ∧
      use ∈ customerField.uses ∧ (∃ target, use.RefersTo target) ∧
      ∃ target, use.RefersTo target ∧
        (ofStatements "Order" [customerField]).1.DeclaresKey customerField target
          (ofStatements "Order" [customerField]).2 := by
  have hread : AnnotationUse.ofText "FK(Customer.id)" (some 3) =
      .ok ⟨.foreignKey, .list ["Customer.id"], some 3⟩ := by decide +kernel
  have hfield : customerField ∈ Statement.declaring [customerField] := by decide +kernel
  have huse : ⟨.foreignKey, .list ["Customer.id"], some 3⟩ ∈ customerField.uses := by
    decide +kernel
  exact ⟨_, hread, rfl, hfield, huse, declaresKey_ofStatements.1 _ _ _ hread rfl,
    (declaresKey_ofStatements.2 "Order" [customerField]).2 customerField hfield _ huse rfl⟩

end Entity

end EntityModel
