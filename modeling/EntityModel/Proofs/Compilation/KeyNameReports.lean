import EntityModel.Proofs.Compilation.Batches
import EntityModel.Proofs.Entity.DefaultKeys
import EntityModel.Proofs.Model.Coverage
import EntityModel.Proofs.Model.KeyNames

/-!
# Reports of ambiguous key names

Only the check of key names reports that a name is ambiguous. What the stages before it report is
about statements, sources, columns and targets.
-/

namespace EntityModel

def Diagnostic.IsAmbiguousKeyName (d : Diagnostic) : Prop :=
  ∃ keyName referenced, d.problem = .ambiguousKeyName keyName referenced

theorem KeyOccurrence.isAmbiguousKeyName_diagnostic (o : KeyOccurrence) :
    o.diagnostic.IsAmbiguousKeyName := ⟨o.keyName, o.referenced, rfl⟩

theorem Account.IsSound.kind_of_mem_rejections {name : String} {a : Account} (h : a.IsSound name)
    {r : Rejection} (hr : r ∈ a.rejections) : r.problem.kind = .entry := by
  obtain ⟨fate, hfate, hrejected⟩ := List.mem_filterMap.1 hr
  have hannotation {target : Scope} {e : Element} (hof : Fate.OfAnnotation target e fate) :
      r.problem.kind = .entry := by
    cases hof with
    | applied | kept => cases hrejected
    | rejected _ hkind =>
        obtain rfl := Option.some.inj hrejected
        exact hkind
  have htag {line : Nat} {e : Element} (hof : Fate.OfTag line e fate) :
      r.problem.kind = .entry := by
    cases hof with
    | tagged => cases hrejected
    | rejected _ hkind =>
        obtain rfl := Option.some.inj hrejected
        exact hkind
  cases h with
  | ofUnknownType | ofTakenName => cases hfate
  | ofField _ _ hannotations htags | ofBlock _ hannotations htags =>
      rcases List.mem_append.1 hfate with hmem | hmem
      · obtain ⟨e, -, hof⟩ := exists_of_mem_forall₂ hannotations hmem
        exact hannotation hof
      · obtain ⟨e, -, hof⟩ := exists_of_mem_forall₂ htags hmem
        exact htag hof

theorem Account.IsSound.not_isAmbiguousKeyName {name : String} {a : Account} (h : a.IsSound name)
    {d : Diagnostic} (hd : d ∈ a.diagnostics name) : ¬ d.IsAmbiguousKeyName := by
  rintro ⟨keyName, referenced, hproblem⟩
  have hrejection {field? : Option String}
      (hmem : d ∈ a.rejections.map fun r => r.diagnostic name field?) : False := by
    obtain ⟨r, hr, rfl⟩ := List.mem_map.1 hmem
    have hkind := h.kind_of_mem_rejections hr
    have hsame : r.problem = .ambiguousKeyName keyName referenced := hproblem
    rw [hsame] at hkind
    cases hkind
  cases h with
  | ofUnknownType | ofTakenName =>
      obtain rfl := List.mem_singleton.1 hd
      cases hproblem
  | ofField | ofBlock => exact hrejection hd

theorem Entity.not_isAmbiguousKeyName_of_mem_ofStatements {name : String}
    {statements : List Statement} {d : Diagnostic} (hd : d ∈ (ofStatements name statements).2) :
    ¬ d.IsAmbiguousKeyName := by
  obtain ⟨accounts, -, haccounts⟩ := Assembly.exists_balances name statements
  obtain ⟨a, ha, hmem⟩ := List.mem_flatMap.1 (haccounts.diagnostics.mem_iff.1 hd)
  exact (haccounts.areExact.sound a ha).not_isAmbiguousKeyName hmem

theorem Source.not_isAmbiguousKeyName_of_readEntity {s : Source} {config : Config}
    {result : Entity × Diagnostics} (h : s.readEntity config = .ok result) {d : Diagnostic}
    (hd : d ∈ result.2) : ¬ d.IsAmbiguousKeyName := by
  obtain ⟨definition, name, -, -, hfound⟩ := s.exists_definition_of_readEntity h
  rw [hfound, List.mem_append] at hd
  rcases hd with hstatements | hmismatch
  · exact Entity.not_isAmbiguousKeyName_of_mem_ofStatements hstatements
  · rintro ⟨keyName, referenced, hproblem⟩
    rw [List.mem_ite_nil_right] at hmismatch
    obtain ⟨-, hmismatch⟩ := hmismatch
    unfold nameMismatch at hmismatch
    split at hmismatch
    · rw [List.mem_ite_nil_left, List.mem_singleton] at hmismatch
      obtain ⟨-, rfl⟩ := hmismatch
      cases hproblem
    · cases hmismatch

theorem Source.not_isAmbiguousKeyName_of_reception {s : Source} {config : Config}
    {earlier : List Source} {d : Diagnostic} (hd : d ∈ (s.reception config earlier).diagnostics) :
    ¬ d.IsAmbiguousKeyName := by
  rw [reception] at hd
  split at hd
  · obtain rfl := List.mem_singleton.1 hd
    rintro ⟨keyName, referenced, hproblem⟩
    cases hproblem
  · rename_i entity found hread
    split at hd
    · rcases List.mem_append.1 hd with hfound | hname
      · exact not_isAmbiguousKeyName_of_readEntity hread hfound
      · obtain rfl := List.mem_singleton.1 hname
        rintro ⟨keyName, referenced, hproblem⟩
        cases hproblem
    · exact not_isAmbiguousKeyName_of_readEntity hread hd

namespace Model

variable {m : Model} {d : Diagnostic}

theorem not_isAmbiguousKeyName_of_mem_complete (hd : d ∈ m.complete.2) :
    ¬ d.IsAmbiguousKeyName := by
  obtain ⟨e, -, hentity⟩ := List.mem_flatMap.1 hd
  obtain ⟨fk, -, hkey⟩ := List.mem_flatMap.1 hentity
  obtain ⟨⟨field, problem⟩, hmem, rfl⟩ := List.mem_map.1 hkey
  rintro ⟨keyName, referenced, hproblem⟩
  rw [ForeignKey.completeIn] at hmem
  split at hmem
  · have habout := ForeignKey.completedKey?_of_mem_complete hmem
    have hsame : problem = .ambiguousKeyName keyName referenced := hproblem
    rw [hsame] at habout
    cases habout
  · cases hmem

theorem not_isAmbiguousKeyName_of_mem_resolveLinks [Naming] {directions : LinkDirections}
    {suffix : String} (hd : d ∈ (m.resolveLinks directions suffix).2) :
    ¬ d.IsAmbiguousKeyName := by
  obtain ⟨e, -, hentity⟩ := List.mem_flatMap.1 hd
  obtain ⟨fk, -, rfl⟩ := List.mem_map.1 hentity
  rintro ⟨keyName, referenced, hproblem⟩
  cases hproblem

end Model

theorem mem_compileSources_iff_of_isAmbiguousKeyName [Naming] (config : Config)
    (sources : List Source) {d : Diagnostic} (h : d.IsAmbiguousKeyName) :
    d ∈ (compileSources config sources).diagnostics ↔
      d ∈ (compileSources config sources).model.checkKeyNames := by
  rw [compileSources_eq, Collection.diagnostics_ofSources, Model.laterDiagnostics]
  simp only [List.mem_append]
  constructor
  · rintro (hfound | (hcompletion | hdangling) | hnames)
    · obtain ⟨⟨s, r⟩, hmem, hd⟩ := List.mem_flatMap.1 hfound
      obtain ⟨-, before, rfl⟩ := Source.exists_of_mem_receptions hmem
      exact absurd h (Source.not_isAmbiguousKeyName_of_reception hd)
    · exact absurd h (Model.not_isAmbiguousKeyName_of_mem_complete hcompletion)
    · exact absurd h (Model.not_isAmbiguousKeyName_of_mem_resolveLinks hdangling)
    · exact hnames
  · exact fun hnames => .inr (.inr hnames)

end EntityModel
