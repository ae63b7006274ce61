import EntityModel.Proofs.Model.Coverage

/-!
# The effect of completion

What completing the foreign keys of a collected model changes, and what it reports: column by column
of a key, and for the key as a whole. A completed model is complete: collected and completed once
more it stays as it is.
-/

namespace EntityModel

namespace ForeignKey

variable {R : Entity} {b : Binding} {fk : ForeignKey}

/-- A column at a position that cannot be right: it names no attribute of the referenced entity, or
it is open and the key of that entity ends before the position. -/
def isFaulty (R : Entity) (position : Nat) (b : Binding) : Bool :=
  match b.referenced? with
  | some name => !(R.attributes.map Attribute.name).contains name
  | none => R.keyFields.length ≤ position

def fault (fk : ForeignKey) (R : Entity) (b : Binding) : Problem :=
  match b.referenced? with
  | some name => .unknownAttribute fk.name fk.referenced name
  | none =>
      if R.keyFields.isEmpty then .keylessEntity fk.name fk.referenced
      else .moreColumns fk.name fk.referenced

def faults (fk : ForeignKey) (R : Entity) : List (String × Problem) :=
  (fk.bindings.zipIdx.filter fun column => isFaulty R column.2 column.1).map
    fun column => (column.1.origin, fk.fault R column.1)

/-- The key leaves a column open and has fewer columns than the key of the referenced entity. -/
def isShort (fk : ForeignKey) (R : Entity) : Bool :=
  fk.isImplicit && fk.bindings.length < R.keyFields.length

def shortage (fk : ForeignKey) (R : Entity) : List (String × Problem) :=
  if fk.isShort R then
    fk.firstField?.toList.map fun field => (field, .fewerColumns fk.name fk.referenced)
  else []

/-- An open column stands for the key attribute at its position, if there is one. -/
def filledColumn (R : Entity) (position : Nat) (b : Binding) : Binding :=
  { b with referenced? := b.referenced?.or R.keyFields[position]? }

def filledBy (fk : ForeignKey) (R : Entity) : ForeignKey :=
  { fk with bindings := fk.bindings.mapIdx (filledColumn R) }

theorem complete_eq (fk : ForeignKey) (R : Entity) (position : Nat) (b : Binding) :
    b.complete fk.name fk.referenced R position =
      (filledColumn R position b,
        if isFaulty R position b then some (fk.fault R b) else none) := by
  have hkey : R.keyFields[position]? = R.keyAttributes[position]?.map Attribute.name :=
    List.getElem?_map
  obtain ⟨origin, referenced?⟩ := b
  rw [Binding.complete, filledColumn, hkey]
  cases referenced? with
  | some name =>
      have hknown : (R.attribute? name).isSome =
          (R.attributes.map Attribute.name).contains name := by
        rw [Bool.eq_iff_iff, Entity.attribute?_isSome_iff, List.contains_iff_mem]
      simp only [isFaulty, fault, hknown, Option.some_or]
      by_cases hname : (R.attributes.map Attribute.name).contains name = true
      · simp only [hname, if_true, Bool.not_true, Bool.false_eq_true, if_false]
      · rw [Bool.not_eq_true] at hname
        simp only [hname, Bool.false_eq_true, if_false, Bool.not_false, if_true]
  | none =>
      simp only [isFaulty, fault, Option.none_or, Entity.keyFields, List.length_map]
      cases hget : R.keyAttributes[position]? with
      | some a =>
          obtain ⟨hlt, -⟩ := List.getElem?_eq_some_iff.1 hget
          simp [Nat.not_le.2 hlt]
      | none =>
          have hle := List.getElem?_eq_none_iff.1 hget
          simp [hle]

theorem completeBindings_eq (keyName target : String) (R : Entity) (position : Nat)
    (bindings : List Binding) :
    completeBindings keyName target R position bindings =
      (bindings.zipIdx position).map fun column =>
        column.1.complete keyName target R column.2 := by
  induction bindings generalizing position with
  | nil => rfl
  | cons b rest ih => rw [completeBindings, ih, List.zipIdx_cons, List.map_cons]

/-- Completion fills the key up and reports its faulty columns, and the key if it is short. -/
theorem complete_eq_filledBy (fk : ForeignKey) (R : Entity) :
    fk.complete R = (fk.filledBy R, fk.faults R ++ fk.shortage R) := by
  have hcolumns : completeBindings fk.name fk.referenced R 0 fk.bindings =
      fk.bindings.zipIdx.map fun column =>
        (filledColumn R column.2 column.1,
          if isFaulty R column.2 column.1 then some (fk.fault R column.1) else none) := by
    rw [completeBindings_eq]
    exact List.map_congr_left fun column _ => fk.complete_eq R column.2 column.1
  have hfaults : (completeBindings fk.name fk.referenced R 0 fk.bindings).filterMap
      (fun c => c.2.map fun p => (c.1.origin, p)) = fk.faults R := by
    rw [hcolumns, List.filterMap_map, faults, ← List.filterMap_eq_filter, List.map_filterMap]
    refine List.filterMap_congr fun column _ => ?_
    by_cases hfaulty : isFaulty R column.2 column.1 = true <;>
      simp [Option.guard, hfaulty, filledColumn]
  have hbindings : (completeBindings fk.name fk.referenced R 0 fk.bindings).map Prod.fst =
      (fk.filledBy R).bindings := by
    rw [hcolumns, List.map_map, filledBy, List.mapIdx_eq_zipIdx_map]
    rfl
  have hshortage : (if fk.isImplicit && fk.bindings.length < R.keyAttributes.length then
      fk.firstField?.toList.map fun field => (field, Problem.fewerColumns fk.name fk.referenced)
      else []) = fk.shortage R := by
    rw [shortage, isShort, Entity.keyFields, List.length_map]
  refine Prod.ext ?_ (congrArg₂ (· ++ ·) hfaults hshortage)
  exact congrArg (fun bindings => { fk with bindings := bindings }) hbindings

theorem faults_eq_nil_iff {R : Entity} :
    fk.faults R = [] ↔
      ∀ position b, fk.bindings[position]? = some b → isFaulty R position b = false := by
  simp only [faults, List.map_eq_nil_iff, List.filter_eq_nil_iff, Prod.forall,
    List.mem_zipIdx_iff_getElem?, Bool.not_eq_true]
  exact forall_comm

theorem exists_shortage {R : Entity} (h : fk.isShort R = true) :
    ∃ field, fk.shortage R = [(field, .fewerColumns fk.name fk.referenced)] := by
  have himplicit := h
  rw [isShort, Bool.and_eq_true] at himplicit
  obtain ⟨b, hb, -⟩ := List.any_eq_true.1 himplicit.1
  obtain ⟨first, rest, hbindings⟩ := List.exists_cons_of_ne_nil (List.ne_nil_of_mem hb)
  refine ⟨first.origin, ?_⟩
  rw [shortage, if_pos h, firstField?, hbindings]
  rfl

theorem shortage_eq_nil_iff {R : Entity} : fk.shortage R = [] ↔ fk.isShort R = false := by
  cases h : fk.isShort R with
  | false => simp [shortage, h]
  | true =>
      obtain ⟨field, hshortage⟩ := exists_shortage h
      simp [hshortage]

theorem length_shortage (fk : ForeignKey) (R : Entity) :
    (fk.shortage R).length =
      if fk.isImplicit ∧ fk.bindings.length < R.keyFields.length then 1 else 0 := by
  have hiff : fk.isShort R = true ↔ fk.isImplicit ∧ fk.bindings.length < R.keyFields.length := by
    simp [isShort]
  cases h : fk.isShort R with
  | false => rw [shortage_eq_nil_iff.2 h, if_neg (by rw [← hiff, h]; simp), List.length_nil]
  | true =>
      obtain ⟨field, hshortage⟩ := exists_shortage h
      rw [hshortage, if_pos (hiff.1 h), List.length_singleton]

theorem problems_eq_nil_iff_of_open (hne : fk.bindings ≠ [])
    (hopen : ∀ b ∈ fk.bindings, b.referenced? = none) (R : Entity) :
    fk.faults R ++ fk.shortage R = [] ↔ fk.bindings.length = R.keyFields.length := by
  have himplicit := isImplicit_of_open hne hopen
  have hfaulty {position : Nat} {b : Binding} (hb : fk.bindings[position]? = some b) :
      isFaulty R position b = false ↔ position < R.keyFields.length := by
    simp [isFaulty, hopen b (List.mem_of_getElem? hb)]
  have hshort : fk.isShort R = false ↔ R.keyFields.length ≤ fk.bindings.length := by
    simp [isShort, himplicit]
  rw [List.append_eq_nil_iff, faults_eq_nil_iff, shortage_eq_nil_iff, hshort]
  constructor
  · rintro ⟨hfaults, hle⟩
    apply Nat.le_antisymm _ hle
    apply Nat.le_of_not_lt
    intro hlt
    have hb := List.getElem?_eq_getElem hlt
    exact Nat.lt_irrefl _ ((hfaulty hb).1 (hfaults _ _ hb))
  · intro hlength
    refine ⟨fun position b hb => (hfaulty hb).2 ?_, Nat.le_of_eq hlength.symm⟩
    obtain ⟨hlt, -⟩ := List.getElem?_eq_some_iff.1 hb
    rwa [← hlength]

theorem referenced_filledBy_of_open (hopen : ∀ b ∈ fk.bindings, b.referenced? = none)
    {R : Entity} (hlength : fk.bindings.length = R.keyFields.length) :
    (fk.filledBy R).bindings.map Binding.referenced? = R.keyFields.map some := by
  apply List.ext_getElem
  · simp [filledBy, hlength]
  · intro position h h'
    have hlt : position < fk.bindings.length := by simpa [filledBy] using h
    have hb := hopen _ (List.getElem_mem hlt)
    have hkey : position < R.keyFields.length := by rwa [← hlength]
    simp [filledBy, filledColumn, hb, List.getElem?_eq_getElem hkey]

theorem filledBy_filledBy (fk : ForeignKey) (R : Entity) :
    (fk.filledBy R).filledBy R = fk.filledBy R := by
  have hcolumn (position : Nat) (b : Binding) :
      filledColumn R position (filledColumn R position b) = filledColumn R position b := by
    simp only [filledColumn, Option.or_assoc, Option.or_self]
  simp only [filledBy, List.mapIdx_mapIdx, Function.comp_def, hcolumn]

theorem filledColumn_of_isFaulty {R : Entity} {position : Nat}
    (h : isFaulty R position b = true) : filledColumn R position b = b := by
  obtain ⟨origin, referenced?⟩ := b
  cases referenced? with
  | some name => rfl
  | none =>
      have hle : R.keyFields.length ≤ position := of_decide_eq_true h
      rw [filledColumn, List.getElem?_eq_none hle]
      rfl

theorem isFaulty_filledColumn (R : Entity) (position : Nat) (b : Binding) :
    isFaulty R position (filledColumn R position b) = isFaulty R position b := by
  obtain ⟨origin, referenced?⟩ := b
  cases referenced? with
  | some name => rfl
  | none =>
      cases hget : R.keyFields[position]? with
      | none =>
          rw [filledColumn, hget]
          rfl
      | some name =>
          obtain ⟨hlt, -⟩ := List.getElem?_eq_some_iff.1 hget
          obtain ⟨a, ha, rfl⟩ := List.mem_map.1 (List.mem_of_getElem? hget)
          have hname : a.name ∈ R.attributes.map Attribute.name :=
            List.mem_map_of_mem (List.mem_of_mem_filter ha)
          simp only [isFaulty, filledColumn, hget, Option.none_or, List.contains_iff_mem.2 hname,
            Bool.not_true, Nat.not_le.2 hlt, decide_false]

theorem faults_filledBy (fk : ForeignKey) (R : Entity) :
    (fk.filledBy R).faults R = fk.faults R := by
  have hcolumns : (fk.filledBy R).bindings.zipIdx =
      fk.bindings.zipIdx.map fun column => (filledColumn R column.2 column.1, column.2) := by
    apply List.ext_getElem?
    intro i
    simp only [filledBy, List.getElem?_zipIdx, List.getElem?_mapIdx, List.getElem?_map,
      Option.map_map, Nat.zero_add, Function.comp_def]
  rw [faults, hcolumns, List.filter_map, List.map_map, faults]
  simp only [Function.comp_def, isFaulty_filledColumn]
  refine List.map_congr_left fun column hcolumn => ?_
  rw [filledColumn_of_isFaulty (List.mem_filter.1 hcolumn).2]
  rfl

theorem isShort_filledBy (fk : ForeignKey) (R : Entity) : (fk.filledBy R).isShort R = false := by
  cases hopen : (fk.filledBy R).isImplicit with
  | false => simp [isShort, hopen]
  | true =>
      obtain ⟨b, hb, hnone⟩ := List.any_eq_true.1 hopen
      obtain ⟨position, hlt, rfl⟩ := List.mem_mapIdx.1 hb
      rw [Option.isNone_iff_eq_none, filledColumn, Option.or_eq_none_iff] at hnone
      have hle := List.getElem?_eq_none_iff.1 hnone.2
      have hlength : (fk.filledBy R).bindings.length = fk.bindings.length := List.length_mapIdx
      have hlong : ¬ (fk.filledBy R).bindings.length < R.keyFields.length := by omega
      simp [isShort, hlong]

end ForeignKey

def Problem.isFewerColumns : Problem → Bool
  | fewerColumns _ _ => true
  | _ => false

namespace Model

variable {m : Model} {R : Entity} {fk : ForeignKey}

theorem completeIn_of_absent (h : m.entity? fk.referenced = none) : fk.completeIn m = (fk, []) := by
  rw [ForeignKey.completeIn, h]

theorem completeIn_of_present (h : m.entity? fk.referenced = some R) :
    fk.completeIn m = (fk.filledBy R, fk.faults R ++ fk.shortage R) := by
  rw [ForeignKey.completeIn, h]
  exact fk.complete_eq_filledBy R

theorem filter_problems (fk : ForeignKey) (R : Entity) :
    (fk.faults R ++ fk.shortage R).filter (fun r => !r.2.isFewerColumns) = fk.faults R := by
  have hfaults : (fk.faults R).filter (fun r => !r.2.isFewerColumns) = fk.faults R := by
    rw [List.filter_eq_self]
    intro r hr
    obtain ⟨column, -, rfl⟩ := List.mem_map.1 hr
    simp only [ForeignKey.fault]
    split
    · rfl
    · split <;> rfl
  cases hshort : fk.isShort R with
  | false => rw [ForeignKey.shortage_eq_nil_iff.2 hshort, List.append_nil, hfaults]
  | true =>
      obtain ⟨field, hshortage⟩ := ForeignKey.exists_shortage hshort
      rw [List.filter_append, hfaults, hshortage]
      exact List.append_nil _

/-- In a completed model a key is completed already, and what is wrong with it is wrong still;
only a key that was short has no open column any more. -/
theorem completeIn_complete (m : Model) (fk : ForeignKey) :
    (fk.completeIn m).1.completeIn m.complete.1 =
      ((fk.completeIn m).1, (fk.completeIn m).2.filter fun r => !r.2.isFewerColumns) := by
  have hreferenced : (fk.completeIn m).1.referenced = fk.referenced :=
    (fk.sameColumns_completeIn m).referenced
  cases htarget : m.entity? fk.referenced with
  | none =>
      have habsent : m.complete.1.entity? (fk.completeIn m).1.referenced = none := by
        rw [entity?_complete, hreferenced, htarget, Option.map_none]
      rw [completeIn_of_absent habsent, completeIn_of_absent htarget]
      rfl
  | some R =>
      have hpresent :
          m.complete.1.entity? (fk.completeIn m).1.referenced = some (m.completeEntity R) := by
        rw [entity?_complete, hreferenced, htarget, Option.map_some]
      have hfilled : (fk.filledBy R).filledBy (m.completeEntity R) = fk.filledBy R :=
        fk.filledBy_filledBy R
      have hfaults : (fk.filledBy R).faults (m.completeEntity R) = fk.faults R :=
        fk.faults_filledBy R
      have hshortage : (fk.filledBy R).shortage (m.completeEntity R) = [] :=
        ForeignKey.shortage_eq_nil_iff.2 (fk.isShort_filledBy R)
      rw [completeIn_of_present hpresent, completeIn_of_present htarget, hfilled, hfaults,
        hshortage, List.append_nil, filter_problems]

theorem completeEntity_complete (m : Model) (e : Entity) :
    m.complete.1.completeEntity (m.completeEntity e) = m.completeEntity e := by
  simp only [completeEntity, List.map_map, Function.comp_def, completeIn_complete]

theorem completionProblems_complete (m : Model) (e : Entity) :
    m.complete.1.completionProblems (m.completeEntity e) =
      (m.completionProblems e).filter fun d => !d.problem.isFewerColumns := by
  simp only [completionProblems, completeEntity, List.flatMap_map, completeIn_complete,
    List.filter_flatMap, List.filter_map, Function.comp_def]

theorem IsKeyedByName.complete_complete (h : m.IsKeyedByName) :
    m.complete.1.complete =
      (m.complete.1, m.complete.2.filter fun d => !d.problem.isFewerColumns) := by
  have hmodel : m.complete.1.complete.1 = m.complete.1 := by
    apply h.complete.complete.eq_of_toList_eq h.complete
    rw [toList_complete, toList_complete, List.map_map]
    exact List.map_congr_left fun e _ => m.completeEntity_complete e
  have hproblems : m.complete.1.complete.2 =
      m.complete.2.filter fun d => !d.problem.isFewerColumns := by
    change m.complete.1.toList.flatMap m.complete.1.completionProblems =
      (m.toList.flatMap m.completionProblems).filter _
    rw [toList_complete, List.flatMap_map, List.filter_flatMap]
    simp only [completionProblems_complete]
  exact Prod.ext hmodel hproblems

end Model

namespace Collection

inductive Call where
  | add (e : Entity)
  | report (ds : Diagnostics)

def apply (c : Collection) : Call → Collection
  | .add e => c.add e
  | .report ds => c.report ds

def ofCalls (calls : List Call) : Collection := calls.foldl apply empty

variable {c : Collection}

theorem isKeyedByName_add (h : c.model.IsKeyedByName) (e : Entity) :
    (c.add e).model.IsKeyedByName := by
  rw [add]
  split
  · rename_i model hadd
    exact h.add? hadd
  · exact h

theorem isKeyedByName_ofCalls (calls : List Call) : (ofCalls calls).model.IsKeyedByName := by
  have hrun {c : Collection} (h : c.model.IsKeyedByName) :
      (calls.foldl apply c).model.IsKeyedByName := by
    induction calls generalizing c with
    | nil => exact h
    | cons call calls ih =>
        cases call with
        | add e => exact ih (isKeyedByName_add h e)
        | report ds => exact ih h
  exact hrun Model.isKeyedByName_empty

theorem add_of_fresh (h : c.model.IsKeyedByName) {e : Entity}
    (hfresh : e.name ∉ c.model.toList.map Entity.name) :
    ∃ model, c.model.add? e = some model ∧ c.add e = ⟨model, c.diagnostics⟩ := by
  have hadd : ¬ c.model.contains e.name = true := by
    rw [Model.contains, OrderedMap.contains_iff, ← Model.names, ← h.map_name_toList]
    exact hfresh
  refine ⟨_, if_neg hadd, ?_⟩
  rw [add, Model.add?, if_neg hadd]

theorem foldl_add_of_fresh (h : c.model.IsKeyedByName) {entities : List Entity}
    (hfresh : ((c.model.toList ++ entities).map Entity.name).Nodup) :
    ((entities.map Call.add).foldl apply c).model.toList = c.model.toList ++ entities ∧
      ((entities.map Call.add).foldl apply c).diagnostics = c.diagnostics := by
  induction entities generalizing c with
  | nil => simp
  | cons e rest ih =>
      have hname : e.name ∉ c.model.toList.map Entity.name := by
        rw [List.map_append, List.map_cons, List.nodup_append] at hfresh
        intro hmem
        exact hfresh.2.2 _ hmem _ (List.mem_cons_self ..) rfl
      obtain ⟨model, hadd, hcall⟩ := add_of_fresh h hname
      have hlist : model.toList = c.model.toList ++ [e] := Model.toList_of_add? hadd
      have hrest := ih (c := ⟨model, c.diagnostics⟩) (h.add? hadd) (by
        rw [hlist, List.append_assoc]
        exact hfresh)
      rw [List.map_cons, List.foldl_cons, apply, hcall]
      simpa [hlist] using hrest

theorem ofCalls_toList {m : Model} (h : m.IsKeyedByName) :
    ofCalls (m.toList.map Call.add) = ⟨m, []⟩ := by
  have hnodup : ((empty.model.toList ++ m.toList).map Entity.name).Nodup := h.nodup_names
  obtain ⟨hlist, hdiagnostics⟩ := foldl_add_of_fresh Model.isKeyedByName_empty hnodup
  have hmodel : (ofCalls (m.toList.map Call.add)).model = m :=
    (isKeyedByName_ofCalls _).eq_of_toList_eq h hlist
  exact congrArg₂ mk hmodel hdiagnostics

/-- Building fills up the foreign keys to entities that are there, and changes nothing else. After
the earlier diagnostics it reports each faulty column of these keys once, and each short key once; a
key whose columns are all open passes if and only if it is as long as the key that it then stands
for. What has been built is built again from its entities without a change, and the same columns are
reported. -/
theorem build_effect (calls : List Call) :
    let c := ofCalls calls
    let found := c.model.toList.flatMap fun e => e.foreignKeys.flatMap fun fk =>
      (fk.completeIn c.model).2.map fun r => (⟨e.name, some r.1, none, r.2⟩ : Diagnostic)
    let again := ofCalls (c.build.1.toList.map .add)
    (c.build.1.names = c.model.names ∧
        c.build.1.toList = c.model.toList.map fun e =>
          { e with foreignKeys := e.foreignKeys.map fun fk => (fk.completeIn c.model).1 }) ∧
      c.build.2 = c.diagnostics ++ found ∧
      (∀ fk : ForeignKey, c.model.entity? fk.referenced = none →
        fk.completeIn c.model = (fk, [])) ∧
      (∀ (fk : ForeignKey) (R : Entity), c.model.entity? fk.referenced = some R →
        fk.completeIn c.model =
            ({ fk with
                bindings := fk.bindings.mapIdx fun i b =>
                  { b with referenced? := b.referenced?.or R.keyFields[i]? } },
              fk.faults R ++ fk.shortage R) ∧
          (fk.shortage R).length =
            (if fk.isImplicit ∧ fk.bindings.length < R.keyFields.length then 1 else 0) ∧
          (fk.bindings ≠ [] → (∀ b ∈ fk.bindings, b.referenced? = none) →
            ((fk.completeIn c.model).2 = [] ↔ fk.bindings.length = R.keyFields.length) ∧
              ((fk.completeIn c.model).2 = [] →
                (fk.completeIn c.model).1.bindings.map Binding.referenced? =
                  R.keyFields.map some))) ∧
      again.build = (c.build.1, found.filter fun d => !d.problem.isFewerColumns) := by
  intro c found again
  have hkeyed : c.model.IsKeyedByName := isKeyedByName_ofCalls calls
  refine ⟨⟨OrderedMap.keys_mapValues .., Model.toList_complete c.model⟩, rfl,
    fun fk => Model.completeIn_of_absent, fun fk R htarget => ?_, ?_⟩
  · have hcompleted := Model.completeIn_of_present htarget
    refine ⟨hcompleted, fk.length_shortage R, fun hne hopen => ?_⟩
    have hlength := ForeignKey.problems_eq_nil_iff_of_open hne hopen R
    rw [hcompleted]
    exact ⟨hlength, fun hnil =>
      ForeignKey.referenced_filledBy_of_open hopen (hlength.1 hnil)⟩
  · have hagain : again = ⟨c.build.1, []⟩ := ofCalls_toList hkeyed.complete
    rw [hagain]
    exact hkeyed.complete_complete

end Collection

end EntityModel
