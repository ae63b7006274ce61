import EntityModel.Proofs.Compilation.Entities

/-!
# Batches of sources

Of the sources that yield an entity of one name, the first is kept. The others, and the sources
that cannot be read, add their own diagnostics to a compilation and nothing else.
-/

namespace EntityModel

namespace Source

def yields? (config : Config) (s : Source) : Option String :=
  (s.readEntity config).toOption.map fun result => result.1.name

/-- The entity of a source is kept, or a source before it yields one of that name, or it cannot be
read. -/
inductive Reception where
  | kept (entity : Entity) (found : Diagnostics)
  | repeated (entity : Entity) (found : Diagnostics)
  | unreadable (e : SyntaxError)

namespace Reception

def entity? : Reception → Option Entity
  | kept entity _ => some entity
  | _ => none

def isKept (r : Reception) : Bool := r.entity?.isSome

def diagnostics : Reception → Diagnostics
  | kept _ found => found
  | repeated entity found => found ++ [⟨entity.name, none, none, .duplicateEntity entity.name⟩]
  | unreadable e => [.ofSyntaxError e]

end Reception

def reception (config : Config) (earlier : List Source) (s : Source) : Reception :=
  match s.readEntity config with
  | .error e => .unreadable e
  | .ok (entity, found) =>
      if entity.name ∈ earlier.filterMap (yields? config) then .repeated entity found
      else .kept entity found

/-- The sources of a batch, each with what becomes of it after those before it. -/
def receptions (config : Config) (earlier : List Source) : List Source → List (Source × Reception)
  | [] => []
  | s :: rest => (s, s.reception config earlier) :: receptions config (earlier ++ [s]) rest

def kept (config : Config) (sources : List Source) : List Source :=
  ((receptions config [] sources).filter fun received => received.2.isKept).map Prod.fst

variable {config : Config} {s : Source} {earlier earlier' sources : List Source}

theorem yields?_of_error {e : SyntaxError} (h : s.readEntity config = .error e) :
    s.yields? config = none := by
  rw [yields?, h]
  rfl

theorem yields?_of_ok {result : Entity × Diagnostics} (h : s.readEntity config = .ok result) :
    s.yields? config = some result.1.name := by
  rw [yields?, h]
  rfl

theorem map_fst_receptions : (receptions config earlier sources).map Prod.fst = sources := by
  induction sources generalizing earlier with
  | nil => rfl
  | cons s rest ih => rw [receptions, List.map_cons, ih]

theorem exists_of_mem_receptions {r : Reception}
    (h : (s, r) ∈ receptions config earlier sources) :
    s ∈ sources ∧ ∃ before, r = s.reception config before := by
  induction sources generalizing earlier with
  | nil => cases h
  | cons first rest ih =>
      rw [receptions, List.mem_cons] at h
      rcases h with heq | hrest
      · obtain ⟨rfl, rfl⟩ := Prod.mk.inj heq
        exact ⟨List.mem_cons_self .., earlier, rfl⟩
      · obtain ⟨hmem, hbefore⟩ := ih hrest
        exact ⟨List.mem_cons_of_mem _ hmem, hbefore⟩

theorem readEntity_of_reception {e : Entity} (h : (s.reception config earlier).entity? = some e) :
    (∃ found, s.readEntity config = .ok (e, found)) ∧
      e.name ∉ earlier.filterMap (yields? config) := by
  rw [reception] at h
  split at h
  · cases h
  · rename_i entity found hread
    split at h
    · cases h
    · rename_i hnew
      obtain rfl : entity = e := Option.some.inj h
      exact ⟨⟨found, hread⟩, hnew⟩

theorem find?_yields_of_mem_receptions {r : Reception} {e : Entity}
    (h : (s, r) ∈ receptions config earlier sources) (he : r.entity? = some e) :
    e.name ∉ earlier.filterMap (yields? config) ∧
      sources.find? (fun s => s.yields? config == some e.name) = some s := by
  induction sources generalizing earlier with
  | nil => cases h
  | cons first rest ih =>
      rw [receptions, List.mem_cons] at h
      rcases h with heq | hrest
      · obtain ⟨rfl, rfl⟩ := Prod.mk.inj heq
        obtain ⟨⟨found, hread⟩, hnew⟩ := readEntity_of_reception he
        exact ⟨hnew, List.find?_cons_of_pos (beq_iff_eq.2 (yields?_of_ok hread))⟩
      · obtain ⟨hnew, hfind⟩ := ih hrest
        rw [List.filterMap_append, List.mem_append, not_or] at hnew
        refine ⟨hnew.1, ?_⟩
        rw [List.find?_cons_of_neg, hfind]
        intro hfirst
        exact hnew.2 (by simp [beq_iff_eq.1 hfirst])

theorem reception_congr (s : Source)
    (h : ∀ name, name ∈ earlier.filterMap (yields? config) ↔
      name ∈ earlier'.filterMap (yields? config)) :
    s.reception config earlier = s.reception config earlier' := by
  rw [reception, reception]
  split
  · rfl
  · simp only [h]

theorem mem_yields_concat_of_not_isKept (h : (s.reception config earlier).isKept = false)
    {name : String} :
    name ∈ (earlier ++ [s]).filterMap (yields? config) ↔
      name ∈ earlier.filterMap (yields? config) := by
  rw [List.filterMap_append, List.mem_append]
  refine ⟨fun hmem => hmem.elim id fun hlast => ?_, .inl⟩
  obtain ⟨t, ht, hyields⟩ := List.mem_filterMap.1 hlast
  obtain rfl := List.mem_singleton.1 ht
  rw [reception] at h
  cases hread : t.readEntity config with
  | error e =>
      rw [yields?_of_error hread] at hyields
      cases hyields
  | ok result =>
      rw [yields?_of_ok hread] at hyields
      obtain rfl := Option.some.inj hyields
      apply Classical.byContradiction
      intro hnew
      simp only [hread, if_neg hnew] at h
      cases h

theorem receptions_kept
    (h : ∀ name, name ∈ earlier.filterMap (yields? config) ↔
      name ∈ earlier'.filterMap (yields? config)) :
    receptions config earlier' (((receptions config earlier sources).filter
        fun received => received.2.isKept).map Prod.fst) =
      (receptions config earlier sources).filter fun received => received.2.isKept := by
  -- what becomes of a source depends only on the names that the sources before it yield, so the two
  -- lists of those need only yield the same names
  induction sources generalizing earlier earlier' with
  | nil => rfl
  | cons s rest ih =>
      rw [receptions]
      cases hkept : (s.reception config earlier).isKept with
      | true =>
          have hsame : ∀ name, name ∈ (earlier ++ [s]).filterMap (yields? config) ↔
              name ∈ (earlier' ++ [s]).filterMap (yields? config) := by
            intro name
            rw [List.filterMap_append, List.filterMap_append, List.mem_append, List.mem_append, h]
          simp only [List.filter_cons, hkept, if_true, List.map_cons, receptions]
          rw [ih hsame, reception_congr s h]
      | false =>
          simp only [List.filter_cons, hkept, Bool.false_eq_true, if_false]
          exact ih fun name => (mem_yields_concat_of_not_isKept hkept).trans (h name)

end Source

namespace Collection

open Source (yields? receptions)

def ofSources (config : Config) (sources : List Source) : Collection :=
  sources.foldl (addSource config) empty

/-- The names of the collected entities are those that the sources yield. -/
structure HasReceived (c : Collection) (config : Config) (earlier : List Source) : Prop where
  keyed : c.model.IsKeyedByName
  contains_iff : ∀ name, c.model.contains name = true ↔ name ∈ earlier.filterMap (yields? config)

variable {c : Collection} {config : Config} {earlier : List Source}

theorem hasReceived_empty (config : Config) : empty.HasReceived config [] := by
  refine ⟨Model.isKeyedByName_empty, fun name => ?_⟩
  simp [empty, Model.empty, Model.contains_eq_isSome, Model.entity?]

theorem HasReceived.addSource_of_not_isKept (h : c.HasReceived config earlier) {s : Source}
    (hkept : (s.reception config earlier).isKept = false) :
    c.addSource config s = c.report (s.reception config earlier).diagnostics := by
  cases hread : s.readEntity config with
  | error e => simp only [addSource, Source.reception, hread, Source.Reception.diagnostics]
  | ok result =>
      obtain ⟨entity, found⟩ := result
      simp only [addSource, Source.reception, hread] at hkept ⊢
      split at hkept
      · rename_i hold
        have hfull : (c.report found).model.add? entity = none :=
          if_pos ((h.contains_iff _).2 hold)
        rw [if_pos hold, addReported, add, hfull]
        simp [report, Source.Reception.diagnostics]
      · cases hkept

theorem HasReceived.addSource_of_kept (h : c.HasReceived config earlier) {s : Source}
    {entity : Entity} {found : Diagnostics}
    (hkept : s.reception config earlier = .kept entity found) :
    s.yields? config = some entity.name ∧ ∃ model, c.model.add? entity = some model ∧
      c.addSource config s = ⟨model, c.diagnostics ++ found⟩ := by
  rw [Source.reception] at hkept
  split at hkept
  · cases hkept
  · rename_i e ds hread
    split at hkept
    · cases hkept
    · rename_i hnew
      obtain ⟨rfl, rfl⟩ := Source.Reception.kept.inj hkept
      obtain ⟨model, hmodel⟩ : ∃ model, c.model.add? e = some model :=
        ⟨_, if_neg fun hmem => hnew ((h.contains_iff _).1 hmem)⟩
      have hreported : (c.report ds).model.add? e = some model := hmodel
      refine ⟨Source.yields?_of_ok hread, model, hmodel, ?_⟩
      simp only [addSource, hread, addReported, add, hreported]
      rfl

theorem HasReceived.addSource (h : c.HasReceived config earlier) (s : Source) :
    (c.addSource config s).HasReceived config (earlier ++ [s]) ∧
      (c.addSource config s).model.toList =
        c.model.toList ++ (s.reception config earlier).entity?.toList ∧
      (c.addSource config s).diagnostics =
        c.diagnostics ++ (s.reception config earlier).diagnostics := by
  cases hreception : s.reception config earlier with
  | kept entity found =>
      obtain ⟨hyields, model, hmodel, hadd⟩ := h.addSource_of_kept hreception
      rw [hadd]
      refine ⟨⟨h.keyed.add? hmodel, fun name => ?_⟩, Model.toList_of_add? hmodel, rfl⟩
      rw [Model.contains_eq_isSome, Model.entity?_of_add? hmodel, List.filterMap_append,
        List.mem_append, ← h.contains_iff, Model.contains_eq_isSome, List.filterMap_cons, hyields]
      by_cases hname : name = entity.name <;> simp [hname]
  | repeated | unreadable =>
      have hkept : (s.reception config earlier).isKept = false := by
        rw [hreception]
        rfl
      rw [← hreception, h.addSource_of_not_isKept hkept]
      refine ⟨⟨h.keyed, fun name => ?_⟩, ?_, rfl⟩
      · rw [Source.mem_yields_concat_of_not_isKept hkept]
        exact h.contains_iff name
      · rw [hreception]
        exact (List.append_nil _).symm

theorem HasReceived.foldl_addSource (h : c.HasReceived config earlier) (sources : List Source) :
    (sources.foldl (Collection.addSource config) c).HasReceived config (earlier ++ sources) ∧
      (sources.foldl (Collection.addSource config) c).model.toList = c.model.toList ++
        (receptions config earlier sources).filterMap (fun received => received.2.entity?) ∧
      (sources.foldl (Collection.addSource config) c).diagnostics = c.diagnostics ++
        (receptions config earlier sources).flatMap fun received => received.2.diagnostics := by
  induction sources generalizing c earlier with
  | nil => simpa [receptions] using h
  | cons s rest ih =>
      obtain ⟨hstep, hlist, hdiagnostics⟩ := h.addSource s
      obtain ⟨hrest, hlist', hdiagnostics'⟩ := ih hstep
      rw [List.foldl_cons, receptions]
      refine ⟨by simpa using hrest, ?_, ?_⟩
      · rw [hlist', hlist, List.append_assoc, List.filterMap_cons]
        cases (s.reception config earlier).entity? <;> rfl
      · rw [hdiagnostics', hdiagnostics, List.append_assoc, List.flatMap_cons]

theorem isKeyedByName_ofSources (config : Config) (sources : List Source) :
    (ofSources config sources).model.IsKeyedByName :=
  ((hasReceived_empty config).foldl_addSource sources).1.keyed

theorem toList_ofSources (config : Config) (sources : List Source) :
    (ofSources config sources).model.toList =
      (receptions config [] sources).filterMap fun received => received.2.entity? :=
  ((hasReceived_empty config).foldl_addSource sources).2.1

theorem diagnostics_ofSources (config : Config) (sources : List Source) :
    (ofSources config sources).diagnostics =
      (receptions config [] sources).flatMap fun received => received.2.diagnostics :=
  ((hasReceived_empty config).foldl_addSource sources).2.2

theorem exists_source_of_mem_ofSources {sources : List Source} {e : Entity}
    (he : e ∈ (ofSources config sources).model.toList) :
    ∃ s, sources.find? (fun s => s.yields? config == some e.name) = some s ∧
      ∃ found, s.readEntity config = .ok (e, found) := by
  rw [toList_ofSources] at he
  obtain ⟨⟨s, r⟩, hmem, hentity⟩ := List.mem_filterMap.1 he
  refine ⟨s, (Source.find?_yields_of_mem_receptions hmem hentity).2, ?_⟩
  obtain ⟨-, before, rfl⟩ := Source.exists_of_mem_receptions hmem
  exact (Source.readEntity_of_reception hentity).1

theorem model_ofSources_kept (config : Config) (sources : List Source) :
    (ofSources config (Source.kept config sources)).model = (ofSources config sources).model := by
  apply (isKeyedByName_ofSources config _).eq_of_toList_eq (isKeyedByName_ofSources config _)
  rw [toList_ofSources, toList_ofSources, Source.kept, Source.receptions_kept fun _ => Iff.rfl,
    List.filterMap_filter]
  refine List.filterMap_congr fun received _ => ?_
  rw [Source.Reception.isKept]
  cases received.2.entity? <;> rfl

end Collection

/-- What the stages after the collection report. -/
def Model.laterDiagnostics [Naming] (m : Model) (directions : LinkDirections) (suffix : String) :
    Diagnostics :=
  m.complete.2 ++ (m.complete.1.resolveLinks directions suffix).2 ++
    (m.complete.1.resolveLinks directions suffix).1.checkKeyNames

theorem compileSources_eq [Naming] (config : Config) (sources : List Source) :
    compileSources config sources =
      ⟨((Collection.ofSources config sources).model.complete.1.resolveLinks .all
          config.listSuffix).1,
        (Collection.ofSources config sources).diagnostics ++
          (Collection.ofSources config sources).model.laterDiagnostics .all config.listSuffix⟩ := by
  rw [Model.laterDiagnostics, ← List.append_assoc, ← List.append_assoc]
  rfl

/-- Compiling only the kept sources of a batch gives the same model, and the diagnostics of the
later stages are the same. Of those before, the ones of the kept sources remain: the others are a
syntax error for each source that cannot be read, and for each source that repeats a name its own
diagnostics with one for the name. -/
theorem compileSources_kept [Naming] (config : Config) (sources : List Source) :
    let received := Source.receptions config [] sources
    let later :=
      (Collection.ofSources config sources).model.laterDiagnostics .all config.listSuffix
    received.map Prod.fst = sources ∧
      (compileSources config (Source.kept config sources)).model =
        (compileSources config sources).model ∧
      (compileSources config sources).diagnostics =
        received.flatMap (fun received => received.2.diagnostics) ++ later ∧
      (compileSources config (Source.kept config sources)).diagnostics =
        (received.filter fun received => received.2.isKept).flatMap
          (fun received => received.2.diagnostics) ++ later := by
  intro received later
  have hmodel := Collection.model_ofSources_kept config sources
  refine ⟨Source.map_fst_receptions, ?_, ?_, ?_⟩
  · rw [compileSources_eq, compileSources_eq, hmodel]
  · rw [compileSources_eq, Collection.diagnostics_ofSources]
  · rw [compileSources_eq, hmodel, Collection.diagnostics_ofSources, Source.kept,
      Source.receptions_kept fun _ => Iff.rfl]

end EntityModel
