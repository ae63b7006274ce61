import EntityModel.Proofs.Compilation.BoundFields
import EntityModel.Proofs.Compilation.KeyNameReports

/-!
# Default key names in a model

Where no source names a foreign key, every key has one column and its default name. Two of these
names can still be the same: if one entity name goes on after the other with an underscore, and the
fields make up for it. Exactly such keys are reported.
-/

namespace EntityModel

namespace Entity

variable {e : Entity}

theorem HasDefaultKeys.completeEntity (h : e.HasDefaultKeys) (m : Model) :
    (m.completeEntity e).HasDefaultKeys := by
  refine ⟨fun fk hfk => ?_, ?_⟩
  · obtain ⟨fk₀, hfk₀, rfl⟩ := List.mem_map.1 hfk
    obtain ⟨b₀, hbindings, hname⟩ := h.keys fk₀ hfk₀
    have hsame := fk₀.sameColumns_completeIn m
    have horigins := hsame.origins
    rw [hbindings, List.map_singleton, List.map_eq_singleton_iff] at horigins
    obtain ⟨b, hcompleted, horigin⟩ := horigins
    refine ⟨b, hcompleted, ?_⟩
    rw [hsame.name, hname, horigin]
    rfl
  · rw [m.boundFields_completeEntity]
    exact h.nodup_boundFields

theorem HasDefaultKeys.withLinks (h : e.HasDefaultKeys) (links : List Link) :
    ({ e with links := links } : Entity).HasDefaultKeys := ⟨h.keys, h.nodup_boundFields⟩

end Entity

def KeyOccurrence.Overlaps (o p : KeyOccurrence) : Prop :=
  NamesOverlap o.origin o.field p.origin p.field ∨ NamesOverlap p.origin p.field o.origin o.field

namespace Model

variable {m : Model}

theorem keyName_of_mem_keyOccurrences (hm : m.Comprises Entity.HasDefaultKeys) {o : KeyOccurrence}
    (ho : o ∈ m.keyOccurrences) : o.keyName = defaultKeyName o.origin o.field := by
  obtain ⟨e, he, hkeys⟩ := List.mem_flatMap.1 ho
  obtain ⟨fk, hfk, hcolumns⟩ := List.mem_flatMap.1 hkeys
  obtain ⟨b, hb, rfl⟩ := List.mem_map.1 hcolumns
  obtain ⟨b', hbindings, hname⟩ := (hm.entities e he).keys fk hfk
  rw [hbindings, List.mem_singleton] at hb
  rw [hname, hb]

theorem nodup_columns (hm : m.Comprises Entity.HasDefaultKeys) :
    (m.keyOccurrences.map fun o => (o.origin, o.field)).Nodup := by
  have hcolumns : (m.keyOccurrences.map fun o => (o.origin, o.field)) =
      m.toList.flatMap fun e => e.boundFields.map (Prod.mk e.name) := by
    simp only [keyOccurrences, Entity.boundFields, List.map_flatMap, List.map_map]
    rfl
  rw [hcolumns, List.nodup_flatMap]
  refine ⟨fun e he => ?_, ?_⟩
  · exact (hm.entities e he).nodup_boundFields.map fun _ _ heq => congrArg Prod.snd heq
  · have hnames := hm.keyed.nodup_names
    rw [List.Nodup, List.pairwise_map] at hnames
    refine hnames.imp fun {e e'} hne column hcolumn hcolumn' => hne ?_
    obtain ⟨field, -, rfl⟩ := List.mem_map.1 hcolumn
    obtain ⟨field', -, heq⟩ := List.mem_map.1 hcolumn'
    exact (congrArg Prod.fst heq).symm

/-- With default names only, a name is ambiguous where the names of two columns overlap. -/
theorem isAmbiguousIn_iff (hm : m.Comprises Entity.HasDefaultKeys) {o : KeyOccurrence}
    (ho : o ∈ m.keyOccurrences) :
    o.IsAmbiguousIn m.keyOccurrences ↔ ∃ p ∈ m.keyOccurrences, o.Overlaps p := by
  have hname {p : KeyOccurrence} (hp : p ∈ m.keyOccurrences) :
      o.keyName = p.keyName ↔ defaultKeyName o.origin o.field = defaultKeyName p.origin p.field := by
    rw [keyName_of_mem_keyOccurrences hm ho, keyName_of_mem_keyOccurrences hm hp]
  constructor
  · rintro ⟨p, hp, hsame, hends⟩
    refine ⟨p, hp, ?_⟩
    rcases defaultKeyName_eq_iff.1 ((hname hp).1 hsame.symm) with ⟨horigin, hfield⟩ | hoverlap
    · -- two columns of one entity on one field are one column, with the same ends
      have hcolumn : o = p := by
        apply List.inj_on_of_nodup_map (nodup_columns hm) ho hp
        rw [horigin, hfield]
      rw [hcolumn] at hends
      exact absurd rfl hends
    · exact hoverlap
  · rintro ⟨p, hp, hoverlap⟩
    refine ⟨p, hp, ((hname hp).2 (defaultKeyName_eq_iff.2 (.inr hoverlap))).symm, fun hends => ?_⟩
    have horigin : p.origin = o.origin := congrArg Prod.fst hends
    rcases hoverlap with hoverlap | hoverlap
    · exact hoverlap.ne horigin.symm
    · exact hoverlap.ne horigin

end Model

namespace Source

def statements (s : Source) : List Statement :=
  match Definition.ofText s.label s.text with
  | .ok definition => definition.statements
  | .error _ => []

def NamesNoKey (s : Source) : Prop := ∀ st ∈ s.statements, st.NamesNoKey

instance (s : Source) : Decidable s.NamesNoKey := inferInstanceAs (Decidable (∀ _ ∈ _, _))

theorem hasDefaultKeys_of_readEntity {s : Source} (h : s.NamesNoKey) {config : Config}
    {result : Entity × Diagnostics} (hread : s.readEntity config = .ok result) :
    result.1.HasDefaultKeys := by
  obtain ⟨definition, name, hdefinition, hentity, -⟩ := s.exists_definition_of_readEntity hread
  rw [NamesNoKey, statements, hdefinition] at h
  rw [hentity]
  exact Entity.hasDefaultKeys_ofStatements name h

end Source

theorem comprises_hasDefaultKeys_compileSources [Naming] (config : Config) {sources : List Source}
    (h : ∀ s ∈ sources, s.NamesNoKey) :
    (compileSources config sources).model.Comprises Entity.HasDefaultKeys := by
  have hcollected : (Collection.ofSources config sources).model.Comprises
      Entity.HasDefaultKeys := by
    refine ⟨Collection.isKeyedByName_ofSources config sources, fun e he => ?_⟩
    obtain ⟨s, hs, found, hread⟩ := Collection.exists_source_of_mem_ofSources he
    exact Source.hasDefaultKeys_of_readEntity (h s (List.mem_of_find?_eq_some hs)) hread
  have hcompleted := hcollected.complete fun e he => he.completeEntity _
  rw [compileSources_eq]
  exact hcompleted.resolveLinks (fun e he links => he.withLinks links) .all config.listSuffix

/-- Where no source names a key, every key has one column and its default name, and the columns
whose key names are reported as ambiguous are those whose names overlap with another column's. -/
theorem compileSources_defaultKeys [Naming] (config : Config) {sources : List Source}
    (h : ∀ s ∈ sources, s.NamesNoKey) :
    (∀ e ∈ (compileSources config sources).model.toList, ∀ fk ∈ e.foreignKeys,
        ∃ b, fk.bindings = [b] ∧ fk.name = defaultKeyName e.name b.origin) ∧
      ∀ d, (d ∈ (compileSources config sources).diagnostics ∧ d.IsAmbiguousKeyName) ↔
        ∃ o ∈ (compileSources config sources).model.keyOccurrences,
          (∃ p ∈ (compileSources config sources).model.keyOccurrences, o.Overlaps p) ∧
            o.diagnostic = d := by
  have hm := comprises_hasDefaultKeys_compileSources config h
  refine ⟨fun e he => (hm.entities e he).keys, fun d => ?_⟩
  constructor
  · rintro ⟨hd, hambiguous⟩
    rw [mem_compileSources_iff_of_isAmbiguousKeyName config sources hambiguous,
      Model.mem_checkKeyNames_iff] at hd
    obtain ⟨o, ho, hreported, hdiagnostic⟩ := hd
    exact ⟨o, ho, (Model.isAmbiguousIn_iff hm ho).1 hreported, hdiagnostic⟩
  · rintro ⟨o, ho, hoverlaps, rfl⟩
    have hambiguous := o.isAmbiguousKeyName_diagnostic
    refine ⟨?_, hambiguous⟩
    rw [mem_compileSources_iff_of_isAmbiguousKeyName config sources hambiguous,
      Model.mem_checkKeyNames_iff]
    exact ⟨o, ho, (Model.isAmbiguousIn_iff hm ho).2 hoverlaps, rfl⟩

def orders : List Source :=
  [.named "Product.entity" "Product \x7b id : Long \x7b @Id \x7d; \x7d",
    .named "Order.entity" "Order \x7b Item_product : Long \x7b @FK(Product) \x7d; \x7d",
    .named "Order_Item.entity" "Order_Item \x7b product : Long \x7b @FK(Product) \x7d; \x7d"]

def orderReport : Diagnostic :=
  ⟨"Order", some "Item_product", some 1, .ambiguousKeyName "FK_Order_Item_product" "Product"⟩

private theorem namesNoKey_orders : ∀ s ∈ orders, s.NamesNoKey := by decide +kernel

private theorem orderReport_mem : orderReport ∈ (compileSources .default orders).diagnostics := by
  decide +kernel

theorem compileSources_defaultKeys_orders :
    (∀ s ∈ orders, s.NamesNoKey) ∧
      ∃ o ∈ (compileSources .default orders).model.keyOccurrences,
        (∃ p ∈ (compileSources .default orders).model.keyOccurrences, o.Overlaps p) ∧
          o.diagnostic = orderReport :=
  ⟨namesNoKey_orders, ((compileSources_defaultKeys .default namesNoKey_orders).2 orderReport).1
    ⟨orderReport_mem, _, _, rfl⟩⟩

/-- The default names of different entities can be the same, and are then reported. -/
theorem exists_ambiguous_of_orders :
    ¬ ∀ (config : Config) (sources : List Source), (∀ s ∈ sources, s.NamesNoKey) →
      (∀ d ∈ (compileSources config sources).diagnostics, ¬ d.IsAmbiguousKeyName) ∧
        ∀ e ∈ (compileSources config sources).model.toList, ∀ fk ∈ e.foreignKeys,
          ∃ b, fk.bindings = [b] := by
  intro h
  exact (h .default orders namesNoKey_orders).1 orderReport orderReport_mem ⟨_, _, rfl⟩

end EntityModel
