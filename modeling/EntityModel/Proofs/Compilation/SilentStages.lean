import EntityModel.Proofs.Compilation.Closure
import EntityModel.Proofs.Entity.SilentTables
import EntityModel.Proofs.Model.CompletionEffect
import EntityModel.Proofs.Model.Reordering

/-!
# Compilations without diagnostics

When the stages of a compilation have nothing to report. A batch of entities is collected silently
if each of them was made silently and their names differ; and keys that name an attribute of an
entity of the model in every column pass through completion and linking.
-/

namespace EntityModel

namespace Collection

variable {c : Collection}

theorem addReported_of_fresh (h : c.model.IsKeyedByName) {r : Entity × Diagnostics}
    (hfresh : r.1.name ∉ c.model.toList.map Entity.name) :
    (c.addReported r).model.IsKeyedByName ∧
      (c.addReported r).model.toList = c.model.toList ++ [r.1] ∧
      (c.addReported r).diagnostics = c.diagnostics ++ r.2 := by
  obtain ⟨model, hadd, hresult⟩ := add_of_fresh (c := c.report r.2) h hfresh
  rw [addReported, hresult]
  exact ⟨h.add? hadd, Model.toList_of_add? hadd, rfl⟩

theorem diagnostics_addReported_of_taken (h : c.model.IsKeyedByName) {r : Entity × Diagnostics}
    (htaken : r.1.name ∈ c.model.toList.map Entity.name) :
    (c.addReported r).model = c.model ∧ (c.addReported r).diagnostics ≠ [] := by
  have hfull : (c.report r.2).model.add? r.1 = none := by
    refine if_pos ?_
    rw [h.map_name_toList] at htaken
    exact OrderedMap.contains_iff.2 htaken
  rw [addReported, add, hfull]
  exact ⟨rfl, by simp [report]⟩

theorem diagnostics_foldl_addReported_eq_nil_iff (h : c.model.IsKeyedByName)
    (results : List (Entity × Diagnostics)) :
    (results.foldl addReported c).diagnostics = [] ↔
      c.diagnostics = [] ∧ (∀ r ∈ results, r.2 = []) ∧
        ((c.model.toList ++ results.map Prod.fst).map Entity.name).Nodup := by
  induction results generalizing c with
  | nil => simpa using fun _ => h.nodup_names
  | cons r results ih =>
      rw [List.foldl_cons, List.map_cons, List.map_append, List.map_cons, List.forall_mem_cons]
      by_cases htaken : r.1.name ∈ c.model.toList.map Entity.name
      · obtain ⟨hmodel, hdiagnostics⟩ := diagnostics_addReported_of_taken h htaken
        rw [ih (hmodel ▸ h), List.nodup_middle, List.nodup_cons, List.mem_append]
        exact ⟨fun hsilent => absurd hsilent.1 hdiagnostics,
          fun hsilent => absurd (.inl htaken) hsilent.2.2.1⟩
      · obtain ⟨hkeyed, hlist, hdiagnostics⟩ := addReported_of_fresh h htaken
        rw [ih hkeyed, hlist, hdiagnostics, List.append_eq_nil_iff, List.append_assoc,
          List.singleton_append, List.map_append, List.map_cons, and_assoc, and_assoc]

theorem foldl_addReported_of_nodup (h : c.model.IsKeyedByName)
    {results : List (Entity × Diagnostics)}
    (hnames : ((c.model.toList ++ results.map Prod.fst).map Entity.name).Nodup) :
    (results.foldl addReported c).model.IsKeyedByName ∧
      (results.foldl addReported c).model.toList = c.model.toList ++ results.map Prod.fst := by
  induction results generalizing c with
  | nil => simpa using h
  | cons r results ih =>
      have hfresh : r.1.name ∉ c.model.toList.map Entity.name := by
        rw [List.map_cons, List.map_append, List.map_cons, List.nodup_middle, List.nodup_cons,
          List.mem_append, not_or] at hnames
        exact hnames.1.1
      obtain ⟨hkeyed, hlist, -⟩ := addReported_of_fresh h hfresh
      have hrest := ih hkeyed (by
        rw [hlist, List.append_assoc]
        exact hnames)
      rw [hlist, List.append_assoc] at hrest
      exact hrest

theorem foldl_addSource_eq {config : Config} {sources : List Source}
    {results : List (Entity × Diagnostics)}
    (h : sources.map (Source.readEntity · config) = results.map .ok) (c : Collection) :
    sources.foldl (addSource config) c = results.foldl addReported c := by
  induction sources generalizing c results with
  | nil =>
      rw [List.map_nil, eq_comm, List.map_eq_nil_iff] at h
      rw [h]
      rfl
  | cons s sources ih =>
      cases results with
      | nil => cases h
      | cons r results =>
          rw [List.map_cons, List.map_cons, List.cons.injEq] at h
          rw [List.foldl_cons, List.foldl_cons, addSource, h.1]
          exact ih h.2 _

end Collection

namespace Schema

variable [Naming] {schema : Schema}

def collected (schema : Schema) : Collection := schema.tables.foldl Collection.addTable .empty

theorem collected_eq (schema : Schema) :
    schema.collected = (schema.tables.map Entity.ofTable).foldl Collection.addReported .empty := by
  rw [collected, List.foldl_map]
  rfl

theorem map_name_ofTable (schema : Schema) :
    ((Collection.empty.model.toList ++ (schema.tables.map Entity.ofTable).map Prod.fst).map
      Entity.name) = schema.tables.map fun t => entityNameOf t.name := by
  have hempty : Collection.empty.model.toList = [] := rfl
  rw [hempty, List.nil_append, List.map_map, List.map_map]
  exact List.map_congr_left fun t _ => Entity.name_ofTable t

/-- The entities of a schema are collected silently if and only if its tables are sound and give
their entities different names. -/
theorem diagnostics_collected_eq_nil_iff :
    schema.collected.diagnostics = [] ↔
      (∀ t ∈ schema.tables, t.IsSound) ∧
        (schema.tables.map fun t => entityNameOf t.name).Nodup := by
  rw [collected_eq, Collection.diagnostics_foldl_addReported_eq_nil_iff Model.isKeyedByName_empty,
    map_name_ofTable, List.forall_mem_map]
  simp only [Entity.diagnostics_ofTable_eq_nil_iff]
  exact ⟨fun h => h.2, fun h => ⟨rfl, h⟩⟩

theorem collected_of_nodup (h : (schema.tables.map fun t => entityNameOf t.name).Nodup) :
    schema.collected.model.IsKeyedByName ∧
      schema.collected.model.toList = schema.tables.map fun t => (Entity.ofTable t).1 := by
  rw [← map_name_ofTable] at h
  obtain ⟨hkeyed, hlist⟩ := Collection.foldl_addReported_of_nodup Model.isKeyedByName_empty h
  rw [← collected_eq] at hkeyed hlist
  refine ⟨hkeyed, hlist.trans ?_⟩
  rw [List.map_map]
  rfl

end Schema

theorem ForeignKey.filledColumn_of_named {b : Binding} {name : String}
    (h : b.referenced? = some name) (R : Entity) (position : Nat) :
    filledColumn R position b = b := by
  obtain ⟨origin, referenced?⟩ := b
  simp only at h
  rw [filledColumn, h]
  rfl

namespace Model

variable {m : Model} {fk : ForeignKey}

/-- The key leads into the model, and each of its columns names an attribute there. -/
def Resolves (m : Model) (fk : ForeignKey) : Prop :=
  ∃ R, m.entity? fk.referenced = some R ∧ ∀ b ∈ fk.bindings,
    ∃ name ∈ R.attributes.map Attribute.name, b.referenced? = some name

theorem Resolves.contains (h : m.Resolves fk) : m.contains fk.referenced = true := by
  obtain ⟨R, hR, -⟩ := h
  rw [contains_eq_isSome, hR]
  rfl

theorem Resolves.completeIn_eq (h : m.Resolves fk) : fk.completeIn m = (fk, []) := by
  obtain ⟨R, hR, hnamed⟩ := h
  have hbindings : fk.bindings.mapIdx (ForeignKey.filledColumn R) = fk.bindings := by
    refine List.ext_getElem (by simp) fun i hi hi' => ?_
    obtain ⟨name, -, hreferenced⟩ := hnamed _ (List.getElem_mem hi')
    rw [List.getElem_mapIdx, ForeignKey.filledColumn_of_named hreferenced]
  have hfilled : fk.filledBy R = fk := by rw [ForeignKey.filledBy, hbindings]
  have hfaults : fk.faults R = [] := by
    rw [ForeignKey.faults_eq_nil_iff]
    intro position b hb
    obtain ⟨name, hname, hreferenced⟩ := hnamed b (List.mem_of_getElem? hb)
    simp only [ForeignKey.isFaulty, hreferenced, List.contains_iff_mem.2 hname, Bool.not_true]
  have hshortage : fk.shortage R = [] := by
    have himplicit : fk.isImplicit = false := by
      rw [ForeignKey.isImplicit, List.any_eq_false]
      intro b hb
      obtain ⟨name, -, hreferenced⟩ := hnamed b hb
      simp [hreferenced]
    rw [ForeignKey.shortage_eq_nil_iff, ForeignKey.isShort, himplicit, Bool.false_and]
  rw [completeIn_of_present hR, hfilled, hfaults, hshortage]
  rfl

theorem resolves_of_completeIn {R : Entity} (hR : m.entity? fk.referenced = some R)
    (hexplicit : fk.isImplicit = false) (h : (fk.completeIn m).2 = []) : m.Resolves fk := by
  rw [completeIn_of_present hR, List.append_eq_nil_iff, ForeignKey.faults_eq_nil_iff] at h
  refine ⟨R, hR, fun b hb => ?_⟩
  have hsome : b.referenced?.isSome = true := by
    rw [ForeignKey.isImplicit, List.any_eq_false] at hexplicit
    simpa [Option.isSome_iff_ne_none] using hexplicit b hb
  obtain ⟨name, hname⟩ := Option.isSome_iff_exists.1 hsome
  obtain ⟨position, hposition⟩ := List.getElem?_of_mem hb
  have hfault := h.1 position b hposition
  simp only [ForeignKey.isFaulty, hname, Bool.not_eq_eq_eq_not, Bool.not_false] at hfault
  exact ⟨name, List.contains_iff_mem.1 hfault, hname⟩

theorem IsKeyedByName.complete_of_resolves (hm : m.IsKeyedByName)
    (h : ∀ e ∈ m.toList, ∀ fk ∈ e.foreignKeys, m.Resolves fk) : m.complete = (m, []) := by
  have hentities : ∀ e ∈ m.toList, m.completeEntity e = e := by
    intro e he
    have hkeys : e.foreignKeys.map (fun fk => (fk.completeIn m).1) = e.foreignKeys := by
      refine (List.map_congr_left fun fk hfk => ?_).trans (List.map_id _)
      rw [(h e he fk hfk).completeIn_eq]
      rfl
    rw [completeEntity, hkeys]
  have hmodel : m.complete.1 = m := by
    apply hm.complete.eq_of_toList_eq hm
    rw [toList_complete]
    exact (List.map_congr_left hentities).trans (List.map_id _)
  have hproblems : m.complete.2 = [] := by
    refine List.flatMap_eq_nil_iff.2 fun e he => List.flatMap_eq_nil_iff.2 fun fk hfk => ?_
    rw [(h e he fk hfk).completeIn_eq]
    rfl
  exact Prod.ext hmodel hproblems

theorem danglingKeys_of_resolves [Naming] (h : ∀ e ∈ m.toList, ∀ fk ∈ e.foreignKeys, m.Resolves fk)
    (directions : LinkDirections) (suffix : String) :
    (m.resolveLinks directions suffix).2 = [] := by
  refine List.flatMap_eq_nil_iff.2 fun e he => ?_
  rw [danglingKeys, List.map_eq_nil_iff, List.filter_eq_nil_iff]
  intro fk hfk
  simp [(h e he fk hfk).contains]

end Model

theorem Compilation.resolves_of_isValid [Naming] {directions : LinkDirections} {suffix : String}
    {c : Collection} (h : (ofCollection directions suffix c).isValid = true) {e : Entity}
    (he : e ∈ c.model.toList) {fk : ForeignKey} (hfk : fk ∈ e.foreignKeys)
    (hexplicit : fk.isImplicit = false) : c.model.Resolves fk := by
  obtain ⟨hcomplete, hpresent, -⟩ := stages_of_isValid h
  have htarget := hpresent _ (Model.mem_toList_complete_iff.2 ⟨e, he, rfl⟩) _
    (List.mem_map_of_mem hfk)
  rw [(fk.sameColumns_completeIn c.model).referenced, Model.contains_complete] at htarget
  obtain ⟨R, hR⟩ := Option.isSome_iff_exists.1 htarget
  exact Model.resolves_of_completeIn hR hexplicit (hcomplete e he fk hfk)

/-- A silently collected batch whose keys are resolved compiles silently, if no key name is
ambiguous; only links are added to its entities. -/
theorem Compilation.ofCollection_of_resolves [Naming] {c : Collection}
    (hkeyed : c.model.IsKeyedByName) (hsilent : c.diagnostics = [])
    (hkeys : ∀ e ∈ c.model.toList, ∀ fk ∈ e.foreignKeys, c.model.Resolves fk)
    (directions : LinkDirections) (suffix : String) :
    ofCollection directions suffix c =
      ⟨(c.model.resolveLinks directions suffix).1, c.model.checkKeyNames⟩ := by
  have hnames : (c.model.resolveLinks directions suffix).1.checkKeyNames =
      c.model.checkKeyNames := by
    rw [Model.checkKeyNames, Model.checkKeyNames, hkeyed.keyOccurrences_resolveLinks]
  have hbuild : c.build = (c.model, []) := by
    rw [Collection.build, hkeyed.complete_of_resolves hkeys, hsilent]
    rfl
  simp only [ofCollection, hbuild, hnames, Model.danglingKeys_of_resolves hkeys directions suffix,
    List.nil_append]

end EntityModel
