import EntityModel.Proofs.Entity.Accounting

/-!
# Lines of rejected entries

Each diagnostic about an entry comes from one rejected annotation or tag, and names its line. The
exception are the tags of a block that an earlier block has brought: they are reported with the
line on which their block starts.
-/

namespace EntityModel

section Outcomes

variable {α κ : Type} [DecidableEq κ] {read : String → Option Nat → Except AnnotationFault α}
  {key : α → κ} {repeated : κ → Problem}

inductive IsReading (read : String → Option Nat → Except AnnotationFault α) (key : α → κ)
    (repeated : κ → Problem) (keys : List κ) (e : Element) : Except Rejection α → Prop where
  | ok {a : α} (hread : read e.text (some e.line) = .ok a) :
      IsReading read key repeated keys e (.ok a)
  | unreadable {fault : AnnotationFault} (hread : read e.text (some e.line) = .error fault) :
      IsReading read key repeated keys e (.error ⟨e.line, .rejected fault⟩)
  | repeated {a : α} (hread : read e.text (some e.line) = .ok a) (hkey : key a ∈ keys) :
      IsReading read key repeated keys e (.error ⟨e.line, repeated (key a)⟩)

omit [DecidableEq κ] in
theorem IsReading.mono {keys keys' : List κ} (hkeys : ∀ k ∈ keys, k ∈ keys') {e : Element}
    {outcome : Except Rejection α} (h : IsReading read key repeated keys e outcome) :
    IsReading read key repeated keys' e outcome := by
  cases h with
  | ok hread => exact .ok hread
  | unreadable hread => exact .unreadable hread
  | repeated hread hkey => exact .repeated hread (hkeys _ hkey)

theorem isReading_outcomesBy (seen : List κ) (elements : List Element) :
    elements.Forall₂ (IsReading read key repeated
        (seen ++ (accepted (outcomesBy read key repeated seen elements)).map key))
      (outcomesBy read key repeated seen elements) := by
  induction elements generalizing seen with
  | nil => exact .nil
  | cons element rest ih =>
      rw [outcomesBy]
      cases hread : read element.text (some element.line) with
      | error fault => exact .cons (.unreadable hread) (ih seen)
      | ok a =>
          by_cases hseen : key a ∈ seen
          · simp only [hseen, if_true]
            exact .cons (.repeated hread (List.mem_append_left _ hseen)) (ih seen)
          · simp only [hseen, if_false]
            refine .cons (.ok hread) ((ih (key a :: seen)).imp fun e outcome h => ?_)
            refine h.mono fun k hk => ?_
            rw [accepted_cons_ok, List.map_cons, List.mem_append, List.mem_cons]
            rcases List.mem_append.1 hk with hk | hk
            · rcases List.mem_cons.1 hk with rfl | hk
              · exact .inr (.inl rfl)
              · exact .inl hk
            · exact .inr (.inr hk)

end Outcomes

theorem isReading_annotationOutcomes (st : Statement) :
    st.annotations.Forall₂ (IsReading AnnotationUse.ofText AnnotationUse.kind .repeatedKind
      (st.uses.map AnnotationUse.kind)) (annotationOutcomes [] st.annotations) := by
  rw [Statement.uses, annotationOutcomes_eq]
  exact isReading_outcomesBy [] st.annotations

theorem isReading_tagOutcomes (st : Statement) :
    st.tags.Forall₂ (IsReading TagUse.ofText TagUse.name .repeatedTag
      (st.tagUses.map TagUse.name)) (tagOutcomes [] st.tags) := by
  rw [Statement.tagUses, tagOutcomes_eq]
  exact isReading_outcomesBy [] st.tags

/-- Why an annotation of a statement is rejected, and the problem that is reported. The accounts
are those of the statements before it. -/
inductive Statement.RejectsAnnotation (name : String) (front : List Account) (st : Statement)
    (e : Element) : Problem → Prop where
  | unreadable {fault : AnnotationFault}
      (hread : AnnotationUse.ofText e.text (some e.line) = .error fault) :
      RejectsAnnotation name front st e (.rejected fault)
  | repeated {use : AnnotationUse} (hread : AnnotationUse.ofText e.text (some e.line) = .ok use)
      (hkind : use.kind ∈ st.uses.map AnnotationUse.kind) :
      RejectsAnnotation name front st e (.repeatedKind use.kind)
  | refused (hst : st.isEntityBlock = false) {use : AnnotationUse} {problem : Problem}
      (hread : AnnotationUse.ofText e.text (some e.line) = .ok use)
      (hrole : use.kind.fieldRole st.declaresKey = .refused problem) :
      RejectsAnnotation name front st e problem
  -- an earlier column of the foreign key carries the kind
  | carried (hst : st.isEntityBlock = false) {use : AnnotationUse}
      (hread : AnnotationUse.ofText e.text (some e.line) = .ok use)
      (hrole : use.kind.fieldRole st.declaresKey = .onLink)
      (hkind : use.kind ∈
        (front.flatMap (Account.keptOn name (st.keyEnds name))).map AnnotationUse.kind) :
      RejectsAnnotation name front st e (.repeatedOnKey use.kind (st.keyEnds name).1)
  | misplaced (hst : st.isEntityBlock = true) {use : AnnotationUse}
      (hread : AnnotationUse.ofText e.text (some e.line) = .ok use)
      (hallows : use.kind.allows .entity = false) :
      RejectsAnnotation name front st e (.notOnEntity use.kind)
  -- an earlier block has applied the kind
  | applied (hst : st.isEntityBlock = true) {use : AnnotationUse}
      (hread : AnnotationUse.ofText e.text (some e.line) = .ok use)
      (hkind : use.kind ∈ (front.flatMap Account.entityUses).map AnnotationUse.kind) :
      RejectsAnnotation name front st e (.repeatedKind use.kind)

inductive Statement.RejectsTag (front : List Account) (st : Statement) (e : Element) :
    Rejection → Prop where
  | unreadable {fault : AnnotationFault}
      (hread : TagUse.ofText e.text (some e.line) = .error fault) :
      RejectsTag front st e ⟨e.line, .rejected fault⟩
  | repeated {tag : TagUse} (hread : TagUse.ofText e.text (some e.line) = .ok tag)
      (hname : tag.name ∈ st.tagUses.map TagUse.name) :
      RejectsTag front st e ⟨e.line, .repeatedTag tag.name⟩
  -- an earlier block has brought a tag of the name: this one counts for its block
  | attached (hst : st.isEntityBlock = true) {tag : TagUse}
      (hread : TagUse.ofText e.text (some e.line) = .ok tag)
      (hname : tag.name ∈ (front.flatMap Account.entityTags).map TagUse.name) :
      RejectsTag front st e ⟨st.line, .repeatedTag tag.name⟩

def Statement.LocatesAnnotation (name : String) (front : List Account) (st : Statement)
    (e : Element) (fate : Fate) : Prop :=
  ∀ r, fate = .rejected r → r.line = e.line ∧ st.RejectsAnnotation name front e r.problem

def Statement.LocatesTag (front : List Account) (st : Statement) (e : Element) (fate : Fate) :
    Prop :=
  ∀ r, fate = .rejected r → st.RejectsTag front e r

namespace Account

/-- Every rejection of the account has its cause in the element that it stands for. -/
inductive IsLocated (name : String) (front : List Account) : Account → Prop where
  | skipped {st : Statement} {problem : Problem} (hkind : problem.kind ≠ .entry) :
      IsLocated name front ⟨st, .skipped problem⟩
  | declared {st : Statement} {type : NeutralType} {annotations tags : List Fate}
      (hannotations : st.annotations.Forall₂ (st.LocatesAnnotation name front) annotations)
      (htags : st.tags.Forall₂ (st.LocatesTag front) tags) :
      IsLocated name front ⟨st, .declared type annotations tags⟩
  | spread {st : Statement} {annotations tags : List Fate}
      (hannotations : st.annotations.Forall₂ (st.LocatesAnnotation name front) annotations)
      (htags : st.tags.Forall₂ (st.LocatesTag front) tags) :
      IsLocated name front ⟨st, .spread annotations tags⟩

variable {name : String} {front : List Account} {st : Statement}

private theorem forall₂_locatesAnnotation {settle : AnnotationUse → Fate}
    (hsettle : ∀ e use r, AnnotationUse.ofText e.text (some e.line) = .ok use →
      settle use = .rejected r → r.line = e.line ∧ st.RejectsAnnotation name front e r.problem) :
    st.annotations.Forall₂ (st.LocatesAnnotation name front)
      ((annotationOutcomes [] st.annotations).map (outcomeFate settle)) := by
  apply forall₂_outcomeFate (isReading_annotationOutcomes st)
  · intro e use houtcome r hr
    cases houtcome with
    | ok hread => exact hsettle e use r hread hr
  · intro e r houtcome r' hr'
    obtain rfl := Fate.rejected.inj hr'
    cases houtcome with
    | unreadable hread => exact ⟨rfl, .unreadable hread⟩
    | repeated hread hkind => exact ⟨rfl, .repeated hread hkind⟩

private theorem forall₂_locatesTag {settle : TagUse → Fate}
    (hsettle : ∀ e tag r, TagUse.ofText e.text (some e.line) = .ok tag →
      settle tag = .rejected r → st.RejectsTag front e r) :
    st.tags.Forall₂ (st.LocatesTag front)
      ((tagOutcomes [] st.tags).map (outcomeFate settle)) := by
  apply forall₂_outcomeFate (isReading_tagOutcomes st)
  · intro e tag houtcome r hr
    cases houtcome with
    | ok hread => exact hsettle e tag r hread hr
  · intro e r houtcome r' hr'
    obtain rfl := Fate.rejected.inj hr'
    cases houtcome with
    | unreadable hread => exact .unreadable hread
    | repeated hread hname => exact .repeated hread hname

theorem isLocated_ofField (hst : st.isEntityBlock = false) (type : NeutralType) :
    (ofField name front st type).IsLocated name front := by
  apply IsLocated.declared
  · apply forall₂_locatesAnnotation
    intro e use r hread hr
    have hline : use.line?.getD st.line = e.line := by
      rw [(AnnotationUse.of_ofText hread).1, Option.getD_some]
    rw [fieldFate, hline] at hr
    split at hr
    · rename_i hrole
      split at hr
      · rename_i hcarried
        obtain rfl := Fate.rejected.inj hr
        obtain ⟨other, hother, hkind⟩ := List.any_eq_true.1 hcarried
        have hmem := List.mem_map_of_mem (f := AnnotationUse.kind) hother
        rw [beq_iff_eq.1 hkind] at hmem
        exact ⟨rfl, .carried hst hread hrole hmem⟩
      · cases hr
    · cases hr
    · rename_i problem hrole
      obtain rfl := Fate.rejected.inj hr
      exact ⟨rfl, .refused hst hread hrole⟩
  · apply forall₂_locatesTag
    intro e tag r hread hr
    cases hr

theorem isLocated_ofBlock (hst : st.isEntityBlock = true) :
    (ofBlock front st).IsLocated name front := by
  apply IsLocated.spread
  · apply forall₂_locatesAnnotation
    intro e use r hread hr
    have hline : use.line?.getD st.line = e.line := by
      rw [(AnnotationUse.of_ofText hread).1, Option.getD_some]
    rw [blockUseFate, hline] at hr
    split at hr
    · rename_i hallows
      obtain rfl := Fate.rejected.inj hr
      exact ⟨rfl, .misplaced hst hread (by simpa using hallows)⟩
    · split at hr
      · rename_i hused
        obtain rfl := Fate.rejected.inj hr
        exact ⟨rfl, .applied hst hread hused⟩
      · cases hr
  · apply forall₂_locatesTag
    intro e tag r hread hr
    rw [blockTagFate] at hr
    split at hr
    · rename_i hattached
      obtain rfl := Fate.rejected.inj hr
      exact .attached hst hread hattached
    · cases hr

theorem isLocated_ofStatement (name : String) (front : List Account) (st : Statement) :
    (ofStatement name front st).IsLocated name front := by
  rw [ofStatement]
  split
  · rename_i hst
    exact isLocated_ofBlock hst
  · rename_i hst
    rw [Bool.not_eq_true] at hst
    split
    · exact .skipped (by simp [Problem.kind])
    · split
      · exact .skipped (by simp [Problem.kind])
      · exact isLocated_ofField hst _

end Account

/-- The diagnostics of an entity are those of the accounts of its statements: one for each
statement that is skipped, which is none about an entry, and one for each annotation or tag that is
rejected. It tells why the entry is rejected, and it names the line of the entry, unless the entry
is a tag of a block that reads well and whose name an earlier block has brought: then it names the
line of the block. -/
theorem Entity.exists_isLocated_ofStatements (name : String) (statements : List Statement) :
    ∃ accounts : List Account, accounts.map Account.statement = statements ∧
      Account.AreExact name accounts ∧
      (ofStatements name statements).1 = ofAccounts name accounts ∧
      (ofStatements name statements).2.Perm (accounts.flatMap (Account.diagnostics name)) ∧
      ∀ front a back, accounts = front ++ a :: back → a.IsLocated name front := by
  have hbalances := Assembly.balances_ofStatements name statements
  refine ⟨Account.ofStatements name statements, Account.statement_ofStatements name statements,
    hbalances.areExact, hbalances.entity, hbalances.diagnostics, ?_⟩
  intro front a back hsplit
  rw [Account.eq_ofStatement_of_ofStatements hsplit]
  exact Account.isLocated_ofStatement name front a.statement

/-- The tag on line 5 is reported for line 4, on which its block starts. -/
theorem Entity.not_forall_line_of_entry :
    ¬∀ (name : String) (statements : List Statement),
      ∀ d ∈ (ofStatements name statements).2, d.kind = .entry →
        ∃ st ∈ statements, ∃ e ∈ st.annotations ++ st.tags, d.line? = some e.line := by
  intro h
  have hdiagnostic := h "E" [⟨"", "", [], [⟨"#A", 2⟩], 1⟩, ⟨"", "", [], [⟨"#A", 5⟩], 4⟩]
    ⟨"E", none, some 4, .repeatedTag "A"⟩ (by decide +kernel) (by decide)
  exact absurd hdiagnostic (by decide)

end EntityModel
