import EntityModel.Proofs.Compilation.Batches
import EntityModel.Proofs.Model.Reordering

/-!
# The order of sources

Sources that yield entities of different names can be compiled in any order. The order decides
where entities and diagnostics stand and which links get numbers, and nothing else.
-/

namespace EntityModel

namespace Source

variable {config : Config} {s : Source} {earlier sources : List Source}

theorem reception_of_notMem
    (h : ∀ name ∈ s.yields? config, name ∉ earlier.filterMap (yields? config)) :
    s.reception config earlier = s.reception config [] := by
  rw [reception, reception]
  cases hread : s.readEntity config with
  | error e => rfl
  | ok result =>
      have hnew := h result.1.name (yields?_of_ok hread)
      simp only [if_neg hnew, List.filterMap_nil, List.not_mem_nil, if_false]

/-- Where no name is yielded twice, every source is received as if it were the first. -/
theorem receptions_of_nodup (h : ((earlier ++ sources).filterMap (yields? config)).Nodup) :
    receptions config earlier sources = sources.map fun s => (s, s.reception config []) := by
  induction sources generalizing earlier with
  | nil => rfl
  | cons s rest ih =>
      have hnew : ∀ name ∈ s.yields? config, name ∉ earlier.filterMap (yields? config) := by
        intro name hname hold
        rw [List.filterMap_append, List.nodup_append] at h
        exact h.2.2 name hold name (List.mem_filterMap.2 ⟨s, List.mem_cons_self .., hname⟩) rfl
      rw [List.append_cons] at h
      rw [receptions, List.map_cons, ih h, reception_of_notMem hnew]

theorem receptions_perm {sources' : List Source} (hperm : sources.Perm sources')
    (hnames : (sources.filterMap (yields? config)).Nodup) :
    (receptions config [] sources).Perm (receptions config [] sources') := by
  have hnames' : (sources'.filterMap (yields? config)).Nodup :=
    (hperm.filterMap (yields? config)).nodup_iff.1 hnames
  rw [receptions_of_nodup hnames, receptions_of_nodup hnames']
  exact hperm.map _

end Source

/-- Sources with distinct entity names can be permuted: the models agree up to the order of their
entities and links and the names of link fields, and the diagnostics up to their order. -/
theorem compileSources_perm [Naming] (config : Config) {sources sources' : List Source}
    (hperm : sources.Perm sources')
    (hnames : (sources.filterMap (Source.yields? config)).Nodup) :
    (compileSources config sources).model.IsReordering (compileSources config sources').model ∧
      (compileSources config sources).diagnostics.Perm
        (compileSources config sources').diagnostics := by
  have hreceptions := Source.receptions_perm hperm hnames
  have hcollected : (Collection.ofSources config sources).model.HasSameEntities
      (Collection.ofSources config sources').model := by
    refine ⟨Collection.isKeyedByName_ofSources config _,
      Collection.isKeyedByName_ofSources config _, ?_⟩
    rw [Collection.toList_ofSources, Collection.toList_ofSources]
    exact hreceptions.filterMap _
  have hfound : (Collection.ofSources config sources).diagnostics.Perm
      (Collection.ofSources config sources').diagnostics := by
    rw [Collection.diagnostics_ofSources, Collection.diagnostics_ofSources]
    exact hreceptions.flatMap_right _
  have hcompleted := hcollected.complete
  have hdangling := hcompleted.danglingKeys_perm .all config.listSuffix
  have hkeyNames := hcompleted.checkKeyNames_perm .all config.listSuffix
  rw [compileSources_eq, compileSources_eq]
  refine ⟨hcompleted.isReordering_resolveLinks .all config.listSuffix, hfound.append ?_⟩
  exact (hcollected.completionProblems_perm.append hdangling).append hkeyNames

def loans : List Source :=
  [.named "Person.entity" "Person \x7b id : Long \x7b @Id \x7d; \x7d",
    .named "Old_loan.entity" "Old_loan \x7b holder : Long \x7b @FK(Person) \x7d; \x7d",
    .named "OldLoan.entity"
      "OldLoan \x7b by : Long \x7b @FK(Person) \x7d; of : Long \x7b @FK(Ghost) \x7d; \x7d"]

theorem compileSources_perm_loans :
    (compileSources .default loans).model.IsReordering
        (compileSources .default loans.reverse).model ∧
      ((compileSources .default loans).model.entity? "Person").map
          (fun e => e.links.map fun l => (l.field, l.referenced)) =
        some [("oldLoanList", "Old_loan"), ("oldLoanList2", "OldLoan")] ∧
      ((compileSources .default loans.reverse).model.entity? "Person").map
          (fun e => e.links.map fun l => (l.field, l.referenced)) =
        some [("oldLoanList", "OldLoan"), ("oldLoanList2", "Old_loan")] :=
  ⟨(compileSources_perm .default (List.reverse_perm loans).symm (by decide +kernel)).1,
    by decide +kernel, by decide +kernel⟩

end EntityModel
