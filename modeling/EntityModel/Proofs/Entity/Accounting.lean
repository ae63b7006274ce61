import EntityModel.Proofs.Entity.AccountedKeys
import EntityModel.Proofs.Entity.Assembly
import EntityModel.Proofs.Entity.Fates

/-!
# Accounting for statements

Every statement that is assembled adds one account to those before it: it is skipped with one
diagnostic, it declares an attribute, or its elements go to the entity. By induction, an entity of
statements is what their accounts amount to, and its diagnostics are those of the accounts.
-/

namespace EntityModel

def Statement.sameField (d d' : Statement × NeutralType) : Bool := d.1.name == d'.1.name

/-- The accounts of an entity, taken together: of the declarations of a field the first counts, and
nothing is applied to the entity, attached to it or kept with one of its keys twice. -/
structure Account.AreExact (entity : String) (accounts : List Account) : Prop where
  sound : ∀ a ∈ accounts, a.IsSound entity
  declarations : accounts.filterMap Account.declaration? =
    ((accounts.map Account.statement).filterMap Statement.declaration?).eraseDupsBy
      Statement.sameField
  nodup_kinds : ((accounts.flatMap Account.entityUses).map AnnotationUse.kind).Nodup
  nodup_names : ((accounts.flatMap Account.entityTags).map TagUse.name).Nodup
  nodup_kept : ∀ ends, ((accounts.flatMap (Account.keptOn entity ends)).map AnnotationUse.kind).Nodup

theorem Tags.ofUses_append (tags more : List TagUse) :
    ofUses (tags ++ more) = more.foldl (fun m tag => m.insert tag.name tag.value?) (ofUses tags) := by
  rw [ofUses, OrderedMap.ofList, List.map_append, List.foldl_append, ofUses, OrderedMap.ofList]
  rw [List.foldl_map]

theorem Tags.mem_keys_ofUses {name : String} {tags : List TagUse} :
    name ∈ (ofUses tags).keys ↔ name ∈ tags.map TagUse.name := by
  induction tags using List.reverseRecOn generalizing name with
  | nil => simp [ofUses, OrderedMap.ofList, OrderedMap.empty, OrderedMap.keys]
  | append_singleton tags tag ih =>
      rw [ofUses_append, List.foldl_cons, List.foldl_nil, OrderedMap.keys_insert]
      by_cases hknown : tag.name ∈ (ofUses tags).keys
      · rw [if_pos hknown, ih, List.map_append, List.mem_append, List.map_singleton,
          List.mem_singleton]
        refine ⟨.inl, fun hmem => hmem.elim id fun hname => ?_⟩
        rw [hname]
        exact ih.1 hknown
      · rw [if_neg hknown]
        simp [ih]

namespace Entity

variable {name : String} {accounts : List Account}

theorem name_ofAccounts : (ofAccounts name accounts).name = name :=
  (applyAll_frame (ofName name) _).1

theorem ofAccounts_concat_of_skipped (statement : Statement) (problem : Problem) :
    ofAccounts name (accounts ++ [⟨statement, .skipped problem⟩]) = ofAccounts name accounts := by
  have hkeys : keysOf name (accounts ++ [⟨statement, .skipped problem⟩]) = keysOf name accounts :=
    keysOf_concat_of_none rfl
  simp [ofAccounts, hkeys, Account.attribute?, Account.entityUses, Account.entityTags]

theorem ofAccounts_concat_of_spread (statement : Statement) (annotations tags : List Fate) :
    ofAccounts name (accounts ++ [⟨statement, .spread annotations tags⟩]) =
      { (ofAccounts name accounts).applyAll (annotations.filterMap Fate.applied?) with
        tags := (tags.filterMap Fate.tagged?).foldl (fun m tag => m.insert tag.name tag.value?)
          (ofAccounts name accounts).tags } := by
  have hkeys : keysOf name (accounts ++ [⟨statement, .spread annotations tags⟩]) =
      keysOf name accounts := keysOf_concat_of_none rfl
  have happly : ((ofName name).applyAll (accounts.flatMap Account.entityUses ++
      annotations.filterMap Fate.applied?)) =
      ((ofName name).applyAll (accounts.flatMap Account.entityUses)).applyAll
        (annotations.filterMap Fate.applied?) := List.foldl_append
  simp only [ofAccounts, applyAll_with, hkeys, List.filterMap_append, List.flatMap_append,
    List.flatMap_singleton, Account.entityUses, Account.entityTags, happly, Tags.ofUses_append]
  simp [Account.attribute?]

theorem ofAccounts_concat_of_declared (st : Statement) (type : NeutralType)
    (annotations tags : List Fate) :
    ofAccounts name (accounts ++ [⟨st, .declared type annotations tags⟩]) =
      { ofAccounts name accounts with
        attributes := (ofAccounts name accounts).attributes ++
          [{ Assembly.fieldAttribute st type (annotations.filterMap Fate.applied?)
              (tags.filterMap Fate.tagged?) with
            isForeignKey := (Account.key? name ⟨st, .declared type annotations tags⟩).isSome }]
        foreignKeys := keysOf name (accounts ++ [⟨st, .declared type annotations tags⟩]) } := by
  simp [ofAccounts, Account.attribute?_declared, Account.entityUses, Account.entityTags]

theorem declared_ofAccounts :
    (ofAccounts name accounts).attributes.map (fun a => (a.name, a.type, a.line?)) =
      (accounts.filterMap Account.declaration?).map fun d => (d.1.name, d.2, some d.1.line) := by
  have hattributes : (ofAccounts name accounts).attributes =
      accounts.filterMap (Account.attribute? name) := rfl
  rw [hattributes, List.map_filterMap, List.map_filterMap]
  refine List.filterMap_congr fun a _ => ?_
  obtain ⟨statement, verdict⟩ := a
  cases verdict with
  | skipped => rfl
  | declared type annotations tags =>
      obtain ⟨hname, htype, hline, -⟩ :=
        (statement.plainAttribute type).applyAll_frame (annotations.filterMap Fate.applied?)
      simp only [Account.attribute?, Account.declaration?, Option.map_some, hname, htype, hline]
      rfl
  | spread => rfl

theorem fieldNames_ofAccounts :
    (ofAccounts name accounts).fieldNames =
      (accounts.filterMap Account.declaration?).map fun d => d.1.name := by
  have hlinks : (ofAccounts name accounts).links = [] := (applyAll_frame (ofName name) _).2.1
  have hnames := congrArg (List.map Prod.fst) (@declared_ofAccounts name accounts)
  rw [List.map_map, List.map_map] at hnames
  rw [fieldNames, hlinks, List.map_nil, List.append_nil]
  exact hnames

theorem hasField_ofAccounts (field : String) :
    (ofAccounts name accounts).hasField field =
      (accounts.filterMap Account.declaration?).any fun d => field == d.1.name := by
  rw [Bool.eq_iff_iff, hasField_iff, fieldNames_ofAccounts, List.any_eq_true, List.mem_map]
  refine exists_congr fun d => and_congr_right fun _ => ?_
  rw [beq_iff_eq, eq_comm]

end Entity

namespace Account

variable {entity : String} {accounts : List Account} {a : Account}

theorem AreExact.concat (h : AreExact entity accounts) (hsound : a.IsSound entity)
    (hdeclaration : a.declaration? = a.statement.declaration?.filter fun d =>
      !(accounts.filterMap Account.declaration?).any (Statement.sameField d))
    (hkinds : ((accounts.flatMap entityUses ++ a.entityUses).map AnnotationUse.kind).Nodup)
    (hnames : ((accounts.flatMap entityTags ++ a.entityTags).map TagUse.name).Nodup)
    (hkept : ∀ ends, ((accounts.flatMap (keptOn entity ends) ++ a.keptOn entity ends).map
      AnnotationUse.kind).Nodup) : AreExact entity (accounts ++ [a]) := by
  refine ⟨?_, ?_, ?_, ?_, ?_⟩
  · intro b hb
    rcases List.mem_append.1 hb with hb | hb
    · exact h.sound b hb
    · rw [List.mem_singleton.1 hb]
      exact hsound
  · rw [List.map_append, List.filterMap_append, List.filterMap_append, List.map_singleton,
      List.filterMap_cons, List.filterMap_cons, List.filterMap_nil, List.filterMap_nil,
      hdeclaration]
    cases a.statement.declaration? with
    | none => simpa using h.declarations
    | some d =>
        rw [eraseDupsBy_concat, ← h.declarations, Option.filter_some]
        cases (accounts.filterMap declaration?).any (Statement.sameField d) with
        | true => exact List.append_nil _
        | false => rfl
  · simpa using hkinds
  · simpa using hnames
  · intro ends
    simpa using hkept ends

theorem length_diagnostics (a : Account) :
    (a.diagnostics entity).length = (if a.isSkipped then 1 else 0) + a.rejections.length := by
  obtain ⟨statement, verdict⟩ := a
  cases verdict <;> simp [diagnostics, isSkipped, rejections, fates]

theorem length_flatMap_diagnostics (accounts : List Account) :
    (accounts.flatMap (diagnostics entity)).length =
      accounts.countP isSkipped + (accounts.flatMap rejections).length := by
  induction accounts with
  | nil => rfl
  | cons a accounts ih =>
      rw [List.flatMap_cons, List.flatMap_cons, List.length_append, List.length_append, ih,
        length_diagnostics, List.countP_cons]
      omega

end Account

def Statement.keyEnds (name : String) (field : Statement) : String × String :=
  match field.target? with
  | some target => (target.keyName?.getD (defaultKeyName name field.name), target.entity)
  | none => ("", "")

namespace Account

def ofBlock (accounts : List Account) (block : Statement) : Account :=
  ⟨block, .spread
    (block.blockFates ((accounts.flatMap entityUses).map AnnotationUse.kind))
    (block.blockTagFates ((accounts.flatMap entityTags).map TagUse.name))⟩

def ofField (name : String) (accounts : List Account) (field : Statement) (type : NeutralType) :
    Account :=
  let ends := field.keyEnds name
  ⟨field, .declared type (field.annotationFates ends.1 (Entity.carries name accounts ends))
    field.tagFates⟩

def ofStatement (name : String) (accounts : List Account) (st : Statement) : Account :=
  if st.isEntityBlock then .ofBlock accounts st
  else
    match NeutralType.ofName? st.typeName with
    | none => ⟨st, .skipped (.unknownType st.typeName)⟩
    | some type =>
        if (accounts.filterMap declaration?).any fun d => st.name == d.1.name then
          ⟨st, .skipped (.duplicateField st.name)⟩
        else .ofField name accounts st type

@[simp] theorem statement_ofStatement (name : String) (accounts : List Account) (st : Statement) :
    (ofStatement name accounts st).statement = st := by
  rw [ofStatement]
  split
  · rfl
  · split
    · rfl
    · split <;> rfl

def ofStatements (name : String) (statements : List Statement) : List Account :=
  statements.foldl (fun accounts st => accounts ++ [ofStatement name accounts st]) []

theorem ofStatements_concat (name : String) (statements : List Statement) (st : Statement) :
    ofStatements name (statements ++ [st]) =
      ofStatements name statements ++ [ofStatement name (ofStatements name statements) st] := by
  rw [ofStatements, List.foldl_append]
  rfl

theorem statement_ofStatements (name : String) (statements : List Statement) :
    (ofStatements name statements).map statement = statements := by
  induction statements using List.reverseRecOn with
  | nil => rfl
  | append_singleton statements st ih =>
      rw [ofStatements_concat, List.map_append, ih, List.map_singleton, statement_ofStatement]

theorem eq_ofStatement_of_ofStatements {name : String} {statements : List Statement}
    {front back : List Account} {a : Account}
    (h : ofStatements name statements = front ++ a :: back) :
    a = ofStatement name front a.statement := by
  induction statements using List.reverseRecOn generalizing back with
  | nil =>
      have hlength := congrArg List.length h
      rw [List.length_append] at hlength
      cases hlength
  | append_singleton statements st ih =>
      rw [ofStatements_concat] at h
      rcases List.eq_nil_or_concat back with rfl | ⟨rest, last, rfl⟩
      · obtain ⟨rfl, hlast⟩ := List.append_inj' h rfl
        rw [← (List.cons.inj hlast).1, statement_ofStatement]
      · have hsplit : ofStatements name statements ++ [ofStatement name
            (ofStatements name statements) st] = (front ++ a :: rest) ++ [last] := by
          simpa using h
        exact ih (List.append_inj' hsplit rfl).1

end Account

namespace Assembly

/-- The assembly so far is what the accounts of the statements so far amount to. -/
structure Balances (s : Assembly) (name : String) (accounts : List Account) : Prop where
  areExact : Account.AreExact name accounts
  entity : s.entity = Entity.ofAccounts name accounts
  blockKinds : ∀ kind, kind ∈ s.blockKinds ↔
    kind ∈ (accounts.flatMap Account.entityUses).map AnnotationUse.kind
  diagnostics : s.diagnostics.Perm (accounts.flatMap (Account.diagnostics name))

variable {s : Assembly} {name : String} {accounts : List Account} {st : Statement}

theorem balances_ofName (name : String) : (ofName name).Balances name [] :=
  ⟨⟨by simp, rfl, .nil, .nil, fun _ => .nil⟩, rfl, by simp [ofName], .nil⟩

theorem Balances.name_entity (h : s.Balances name accounts) : s.entity.name = name := by
  rw [h.entity, Entity.name_ofAccounts]

theorem Balances.skip (h : s.Balances name accounts) {problem : Problem}
    (hsound : Account.IsSound name ⟨st, .skipped problem⟩)
    (htaken : ∀ d ∈ st.declaration?,
      (accounts.filterMap Account.declaration?).any (Statement.sameField d) = true) :
    (s.report (some st.name) [⟨st.line, problem⟩]).Balances name
      (accounts ++ [⟨st, .skipped problem⟩]) := by
  refine ⟨h.areExact.concat hsound ?_ ?_ ?_ ?_, ?_, ?_, ?_⟩
  · refine (Option.filter_eq_none_iff.2 fun d hd => ?_).symm
    rw [htaken d hd]
    decide
  · simpa [Account.entityUses] using h.areExact.nodup_kinds
  · simpa [Account.entityTags] using h.areExact.nodup_names
  · intro ends
    rw [Account.keptOn_of_key?_eq_none rfl, List.append_nil]
    exact h.areExact.nodup_kept ends
  · rw [Entity.ofAccounts_concat_of_skipped]
    exact h.entity
  · simpa [report, Account.entityUses] using h.blockKinds
  · have hname := h.name_entity
    rw [List.flatMap_append, report, hname]
    exact h.diagnostics.append_right _

theorem Balances.addBlock (h : s.Balances name accounts) (hst : st.isEntityBlock = true) :
    (s.addBlock st).Balances name (accounts ++ [.ofBlock accounts st]) := by
  have hname := h.name_entity
  have htags : s.entity.tags = .ofUses (accounts.flatMap Account.entityTags) := by
    rw [h.entity]
    rfl
  have hattached : ∀ tagName, tagName ∈ s.entity.tags.keys ↔
      tagName ∈ (accounts.flatMap Account.entityTags).map TagUse.name := by
    intro tagName
    rw [htags]
    exact Tags.mem_keys_ofUses
  have hblock := settlesBlock st h.blockKinds hattached
  rw [Account.ofBlock]
  generalize st.blockFates _ = annotations at hblock ⊢
  generalize st.blockTagFates _ = tags at hblock ⊢
  refine ⟨?_, ?_, ?_, ?_⟩
  · refine h.areExact.concat (.ofBlock hst hblock.each_annotation hblock.each_tag) ?_ ?_ ?_ ?_
    · simp [Account.declaration?, Statement.declaration?, hst]
    · rw [List.map_append, List.nodup_append]
      refine ⟨h.areExact.nodup_kinds, hblock.nodup_kinds, ?_⟩
      rintro kind hold _ hnew rfl
      obtain ⟨use, huse, rfl⟩ := List.mem_map.1 hnew
      exact hblock.fresh_kinds use huse ((h.blockKinds _).2 hold)
    · rw [List.map_append, List.nodup_append]
      refine ⟨h.areExact.nodup_names, hblock.nodup_names, ?_⟩
      rintro tagName hold _ hnew rfl
      obtain ⟨tag, htag, rfl⟩ := List.mem_map.1 hnew
      exact hblock.fresh_names tag htag ((hattached _).2 hold)
    · intro ends
      rw [Account.keptOn_of_key?_eq_none rfl, List.append_nil]
      exact h.areExact.nodup_kept ends
  · rw [hblock.entity, Entity.ofAccounts_concat_of_spread, h.entity]
  · intro kind
    rw [hblock.blockKinds, List.mem_append, List.mem_reverse, h.blockKinds, List.flatMap_append,
      List.map_append, List.mem_append, List.flatMap_singleton]
    exact or_comm
  · have hdiagnostics := hblock.diagnostics
    rw [hname] at hdiagnostics
    rw [List.flatMap_append, List.flatMap_singleton]
    exact hdiagnostics.trans (h.diagnostics.append_right _)

section Field

variable {type : NeutralType} {keyName : String} {carried : AnnotationUse → Bool}
  {annotations tags : List Fate}

theorem key?_of_settles (hsettles : st.Settles keyName carried annotations tags) :
    Account.key? name ⟨st, .declared type annotations tags⟩ = st.target?.map fun target =>
      ((target.keyName?.getD (defaultKeyName name st.name), target.entity),
        ⟨st.name, target.attribute?⟩) := by
  simp only [Account.key?, hsettles.applied]
  rfl

theorem isSound_of_settles (hst : st.isEntityBlock = false)
    (htype : NeutralType.ofName? st.typeName = some type)
    (hsettles : st.Settles keyName carried annotations tags) :
    Account.IsSound name ⟨st, .declared type annotations tags⟩ := by
  refine .ofField hst htype hsettles.each_annotation hsettles.each_tag ?_ ?_ fun hne => ?_
  · rw [hsettles.applied]
    exact (nodup_accepted_annotationOutcomes st.annotations).sublist
      (List.filter_sublist.map AnnotationUse.kind)
  · rw [hsettles.tagged]
    exact nodup_accepted_tagOutcomes st.tags
  · rw [key?_of_settles hsettles, Option.isSome_map]
    cases htarget : st.target? with
    | some target => rfl
    | none =>
        -- Without a key nothing is kept.
        have hkept := hsettles.kept
        rw [Statement.usesFor_onLink_eq_nil st htarget, List.filterMap_append] at hkept
        exact absurd (List.append_eq_nil_iff.1 hkept).1 hne

theorem areExact_concat_declared (h : Account.AreExact name accounts)
    (hst : st.isEntityBlock = false) (htype : NeutralType.ofName? st.typeName = some type)
    (hfree : (Entity.ofAccounts name accounts).hasField st.name = false)
    (hsettles : st.Settles keyName carried annotations tags)
    (hkept : ∀ ends, ((accounts.flatMap (Account.keptOn name ends) ++
      Account.keptOn name ends ⟨st, .declared type annotations tags⟩).map
        AnnotationUse.kind).Nodup) :
    Account.AreExact name (accounts ++ [⟨st, .declared type annotations tags⟩]) := by
  refine h.concat (isSound_of_settles hst htype hsettles) ?_ ?_ ?_ hkept
  · rw [Entity.hasField_ofAccounts] at hfree
    have hdeclaration : st.declaration? = some (st, type) := by
      simp [Statement.declaration?, hst, htype]
    have htaken : (accounts.filterMap Account.declaration?).any
        (Statement.sameField (st, type)) = false := hfree
    simp only [hdeclaration, Option.filter_some, htaken]
    rfl
  · simpa [Account.entityUses] using h.nodup_kinds
  · simpa [Account.entityTags] using h.nodup_names

theorem Balances.perm_diagnostics (h : s.Balances name accounts) (type : NeutralType)
    (hsettles : st.Settles keyName carried annotations tags) :
    (s.diagnostics ++ (st.rejections keyName carried).map fun r =>
        r.diagnostic name (some st.name)).Perm
      ((accounts ++ [(⟨st, .declared type annotations tags⟩ : Account)]).flatMap
        (Account.diagnostics name)) := by
  rw [List.flatMap_append, List.flatMap_singleton]
  exact h.diagnostics.append (hsettles.rejections.symm.map _)

theorem Balances.addAttribute_of_none (h : s.Balances name accounts)
    (hst : st.isEntityBlock = false) (htype : NeutralType.ofName? st.typeName = some type)
    (hfree : s.entity.hasField st.name = false) (htarget : st.target? = none)
    (hsettles : st.Settles keyName carried annotations tags) :
    (s.addAttribute st type).Balances name
      (accounts ++ [⟨st, .declared type annotations tags⟩]) := by
  have hname := h.name_entity
  have hkey : Account.key? name ⟨st, .declared type annotations tags⟩ = none := by
    rw [key?_of_settles hsettles, htarget, Option.map_none]
  rw [h.entity] at hfree
  rw [addAttribute_eq, htarget]
  refine ⟨?_, ?_, ?_, ?_⟩
  · refine areExact_concat_declared h.areExact hst htype hfree hsettles fun ends => ?_
    rw [Account.keptOn_of_key?_eq_none hkey, List.append_nil]
    exact h.areExact.nodup_kept ends
  · have hkeys : Entity.keysOf name (accounts ++ [⟨st, .declared type annotations tags⟩]) =
        (Entity.ofAccounts name accounts).foreignKeys :=
      Entity.keysOf_concat_of_none (by rw [Account.keyEnds?, hkey, Option.map_none])
    have hplain := (frame_fieldAttribute st type (st.usesFor .onAttribute) st.tagUses).2.2
    rw [Entity.ofAccounts_concat_of_declared, hkeys, hkey, hsettles.applied, hsettles.tagged,
      Option.isSome_none, ← hplain]
    simp only [declareKey, h.entity, Entity.addAttribute]
  · simpa [declareKey, report, Account.entityUses] using h.blockKinds
  · have hperm := h.perm_diagnostics type hsettles
    rw [Statement.rejections, Statement.usesFor_onLink_eq_nil st htarget] at hperm
    simpa [declareKey, report, hname] using hperm

section Key

variable {ends : String × String} {target : ForeignKeyTarget}

theorem Balances.addAttribute_of_target (h : s.Balances name accounts)
    (hfree : s.entity.hasField st.name = false) (htarget : st.target? = some target)
    (hends : (target.keyName?.getD (defaultKeyName name st.name), target.entity) = ends)
    (hkey : Account.key? name ⟨st, .declared type annotations tags⟩ =
      some (ends, ⟨st.name, target.attribute?⟩))
    (hsettles : st.Settles ends.1 (Entity.carries name accounts ends) annotations tags) :
    s.addAttribute st type =
      { s with
        entity := Entity.ofAccounts name (accounts ++ [⟨st, .declared type annotations tags⟩])
        diagnostics := s.diagnostics ++
          (st.rejections ends.1 (Entity.carries name accounts ends)).map
            fun r => r.diagnostic name (some st.name) } := by
  have hname := h.name_entity
  have hkeys : s.entity.foreignKeys = Entity.keysOf name accounts := by
    rw [h.entity]
    rfl
  have hnew : st.name ∉ s.entity.attributes.map Attribute.name := by
    intro hmem
    rw [Entity.hasField_iff.2 (List.mem_append_left _ hmem)] at hfree
    cases hfree
  rw [addAttribute_eq, htarget, Entity.ofAccounts_concat_of_declared, hkey, hsettles.applied,
    hsettles.tagged, ← h.entity]
  generalize hdeclared : fieldAttribute st type (st.usesFor .onAttribute) st.tagUses = declared
  have hdeclaredName : declared.name = st.name := by rw [← hdeclared, name_fieldAttribute]
  have hdeclare := Entity.declareForeignKey_keysOf (e := s.entity.addAttribute declared)
    hname hkeys hkey hsettles.kept
  have hmark : Entity.markForeignKey st.name (s.entity.attributes ++ [declared]) =
      s.entity.attributes ++ [{ declared with isForeignKey := true }] := by
    rw [← hdeclaredName] at hnew ⊢
    exact Entity.markForeignKey_concat hnew
  have hkeyName : target.keyName?.getD (defaultKeyName
      (s.entity.addAttribute declared).name st.name) = ends.1 := by
    rw [← hends, ← hname]
    rfl
  have hreferenced : target.entity = ends.2 := by rw [← hends]
  simp only [declareKey, report, hkeyName, hreferenced, hdeclare]
  simp only [Entity.addAttribute, hname, hmark, Option.isSome_some, Statement.rejections,
    List.map_append, List.append_assoc]

theorem nodup_concat_kept (h : Account.AreExact name accounts)
    (hsettles : st.Settles keyName (Entity.carries name accounts ends) annotations tags) :
    ((accounts.flatMap (Account.keptOn name ends) ++
      (annotations ++ tags).filterMap Fate.kept?).map AnnotationUse.kind).Nodup := by
  rw [hsettles.kept, List.map_append, List.nodup_append]
  refine ⟨h.nodup_kept ends, ?_, ?_⟩
  · exact (nodup_accepted_annotationOutcomes st.annotations).sublist
      ((List.filter_sublist.trans List.filter_sublist).map AnnotationUse.kind)
  · rintro kind hold _ hnew rfl
    obtain ⟨use, huse, rfl⟩ := List.mem_map.1 hnew
    obtain ⟨old, hmem, hkind⟩ := List.mem_map.1 hold
    have hfresh := (List.mem_filter.1 huse).2
    rw [Bool.not_eq_true', Entity.carries, List.any_eq_false] at hfresh
    exact hfresh old hmem (beq_iff_eq.2 hkind)

theorem Balances.addAttribute_of_some (h : s.Balances name accounts)
    (hst : st.isEntityBlock = false) (htype : NeutralType.ofName? st.typeName = some type)
    (hfree : s.entity.hasField st.name = false) (htarget : st.target? = some target)
    (hends : (target.keyName?.getD (defaultKeyName name st.name), target.entity) = ends)
    (hsettles : st.Settles ends.1 (Entity.carries name accounts ends) annotations tags) :
    (s.addAttribute st type).Balances name
      (accounts ++ [⟨st, .declared type annotations tags⟩]) := by
  have hkey : Account.key? name ⟨st, .declared type annotations tags⟩ =
      some (ends, ⟨st.name, target.attribute?⟩) := by
    rw [key?_of_settles hsettles, htarget, Option.map_some, hends]
  rw [h.addAttribute_of_target hfree htarget hends hkey hsettles]
  rw [h.entity] at hfree
  refine ⟨?_, rfl, ?_, h.perm_diagnostics type hsettles⟩
  · refine areExact_concat_declared h.areExact hst htype hfree hsettles fun other => ?_
    rw [Account.keptOn_of_key? hkey]
    by_cases hother : ends = other
    · subst hother
      rw [if_pos rfl]
      exact nodup_concat_kept h.areExact hsettles
    · rw [if_neg hother, List.append_nil]
      exact h.areExact.nodup_kept other
  · simpa [Account.entityUses] using h.blockKinds

end Key

theorem Balances.addAttribute (h : s.Balances name accounts) (hst : st.isEntityBlock = false)
    (htype : NeutralType.ofName? st.typeName = some type)
    (hfree : s.entity.hasField st.name = false) :
    (s.addAttribute st type).Balances name (accounts ++ [.ofField name accounts st type]) := by
  have hsettles := st.settles_fates (st.keyEnds name).1
    (Entity.carries name accounts (st.keyEnds name))
  cases htarget : st.target? with
  | none => exact h.addAttribute_of_none hst htype hfree htarget hsettles
  | some target =>
      refine h.addAttribute_of_some hst htype hfree htarget ?_ hsettles
      rw [Statement.keyEnds, htarget]

end Field

theorem Balances.addStatement (h : s.Balances name accounts) (st : Statement) :
    (s.addStatement st).Balances name (accounts ++ [.ofStatement name accounts st]) := by
  rw [Assembly.addStatement, Account.ofStatement]
  cases hst : st.isEntityBlock with
  | true => exact h.addBlock hst
  | false =>
      rw [if_neg (by decide), if_neg (by decide), Assembly.addField]
      cases htype : NeutralType.ofName? st.typeName with
      | none =>
          refine h.skip (.ofUnknownType hst htype) fun d hd => ?_
          simp [Statement.declaration?, hst, htype] at hd
      | some type =>
          have hfield : s.entity.hasField st.name =
              (accounts.filterMap Account.declaration?).any fun d => st.name == d.1.name := by
            rw [h.entity, Entity.hasField_ofAccounts]
          cases htaken : (accounts.filterMap Account.declaration?).any
              (fun d => st.name == d.1.name) with
          | true =>
              rw [htaken] at hfield
              simp only [hfield, if_true]
              refine h.skip (.ofTakenName hst htype) fun d hd => ?_
              obtain rfl : (st, type) = d := by simpa [Statement.declaration?, hst, htype] using hd
              exact htaken
          | false =>
              rw [htaken] at hfield
              simp only [hfield, Bool.false_eq_true, if_false]
              exact h.addAttribute hst htype hfield

theorem balances_ofStatements (name : String) (statements : List Statement) :
    (statements.foldl addStatement (ofName name)).Balances name
      (Account.ofStatements name statements) := by
  induction statements using List.reverseRecOn with
  | nil => exact balances_ofName name
  | append_singleton statements st ih =>
      rw [List.foldl_append, List.foldl_cons, List.foldl_nil, Account.ofStatements_concat]
      exact ih.addStatement st

theorem exists_balances (name : String) (statements : List Statement) :
    ∃ accounts : List Account, accounts.map Account.statement = statements ∧
      (statements.foldl addStatement (ofName name)).Balances name accounts :=
  ⟨Account.ofStatements name statements, Account.statement_ofStatements name statements,
    balances_ofStatements name statements⟩

end Assembly

/-- Every statement and every element of it is accounted for exactly once. The entity is what the
accounts of the statements amount to, the diagnostics are those of the accounts, and there are as
many of them as there are skipped statements and rejected elements. -/
theorem Entity.exists_accounts_ofStatements (name : String) (statements : List Statement) :
    ∃ accounts : List Account, accounts.map Account.statement = statements ∧
      Account.AreExact name accounts ∧
      (ofStatements name statements).1 = ofAccounts name accounts ∧
      (ofStatements name statements).1.attributes.map (fun a => (a.name, a.type, a.line?)) =
        ((statements.filterMap Statement.declaration?).eraseDupsBy Statement.sameField).map
          (fun d => (d.1.name, d.2, some d.1.line)) ∧
      (ofStatements name statements).2.Perm (accounts.flatMap (Account.diagnostics name)) ∧
      (ofStatements name statements).2.length =
        accounts.countP Account.isSkipped + (accounts.flatMap Account.rejections).length := by
  obtain ⟨accounts, hstatements, h⟩ := Assembly.exists_balances name statements
  have hentity : (ofStatements name statements).1 = ofAccounts name accounts := h.entity
  refine ⟨accounts, hstatements, h.areExact, hentity, ?_, h.diagnostics, ?_⟩
  · rw [hentity, declared_ofAccounts, h.areExact.declarations, hstatements]
  · rw [← Account.length_flatMap_diagnostics]
    exact h.diagnostics.length_eq

end EntityModel
