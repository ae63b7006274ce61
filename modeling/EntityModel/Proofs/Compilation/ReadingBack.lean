import EntityModel.Proofs.Compilation.Outlines
import EntityModel.Proofs.Compilation.Rendering

/-!
# Reading what was rendered

Each line of a rendered entity adds its attribute and merges its column, with nothing to report. If
the keys of the entity are in order, what is read has the outline of the entity.
-/

namespace EntityModel

namespace Statement

variable {e : Entity} {a : Attribute} {n : Nat}

theorem uses_formOf (h : e.IsWritable) :
    ((e.formOf a).toStatement n).uses = e.usesOn a n ∧
      rejected (annotationOutcomes [] ((e.formOf a).toStatement n).annotations) = [] := by
  rw [uses, h.toStatement_formOf, h.annotationOutcomes_formOf]
  simp [accepted, rejected, List.filterMap_map, Function.comp_def, Except.toOption]

theorem fieldRole_of_mem_usesOn {use : AnnotationUse} (huse : use ∈ e.usesOn a n)
    (isRelationship : Bool) : use.kind.fieldRole isRelationship = .onAttribute := by
  rw [Entity.usesOn, List.mem_append, List.mem_ite_nil_right, List.mem_singleton,
    List.mem_map] at huse
  rcases huse with ⟨-, rfl⟩ | ⟨c, -, rfl⟩ <;> cases isRelationship <;> rfl

theorem usesFor_formOf (h : e.IsWritable) :
    ((e.formOf a).toStatement n).usesFor .onAttribute = e.usesOn a n ∧
      ((e.formOf a).toStatement n).usesFor .onLink = [] ∧
      ((e.formOf a).toStatement n).refusals = [] := by
  rw [usesFor, usesFor, refusals, (uses_formOf h).1]
  refine ⟨List.filter_eq_self.2 fun use huse => ?_, List.filter_eq_nil_iff.2 fun use huse => ?_,
    List.filterMap_eq_nil_iff.2 fun use huse => ?_⟩
  · rw [fieldRole_of_mem_usesOn huse]
    rfl
  · rw [fieldRole_of_mem_usesOn huse]
    decide
  · rw [Assembly.fieldRejection?, fieldRole_of_mem_usesOn huse]

theorem target?_formOf (h : e.IsWritable) :
    ((e.formOf a).toStatement n).target? = (e.columnOn? a.name).map fun c =>
      ⟨some c.ends.1, c.ends.2, c.binding.referenced?⟩ := by
  have hkey {c : KeyColumn} (hc : e.columnOn? a.name = some c) :
      (c.use n).foreignKeyTarget? = some ⟨some c.ends.1, c.ends.2, c.binding.referenced?⟩ := by
    have hwritable := h.columns c (Entity.of_columnOn?_eq_some hc).1
    rw [← hwritable.ofReference_eq]
    rfl
  rw [target?, (usesFor_formOf h).1, Entity.usesOn]
  cases a.isKey <;> cases hc : e.columnOn? a.name with
  | none => rfl
  | some c => exact hkey hc

theorem column?_formOf (h : e.IsWritable) (name : String) :
    ((e.formOf a).toStatement n).column? name = e.columnOn? a.name := by
  rw [column?, target?_formOf h]
  cases hc : e.columnOn? a.name with
  | none => rfl
  | some c =>
      obtain ⟨ends, origin, referenced?⟩ := c
      have horigin : origin = a.name := (Entity.of_columnOn?_eq_some hc).2
      rw [horigin]
      rfl

end Statement

namespace Assembly

variable {s : Assembly} {e : Entity} {a : Attribute} {n : Nat}

def readAttribute (e : Entity) (a : Attribute) (n : Nat) : Attribute :=
  fieldAttribute ((e.formOf a).toStatement n) a.type (e.usesOn a n) []

theorem frame_readAttribute (e : Entity) (a : Attribute) (n : Nat) :
    (readAttribute e a n).name = a.name ∧ (readAttribute e a n).type = a.type ∧
      (readAttribute e a n).isKey = a.isKey ∧ (readAttribute e a n).isForeignKey = false := by
  rw [readAttribute, Entity.usesOn]
  cases hkey : a.isKey <;> cases e.columnOn? a.name <;> exact ⟨rfl, rfl, rfl, rfl⟩

theorem addStatement_formOf (h : e.IsWritable) (ha : a ∈ e.attributes)
    (hfree : s.entity.hasField a.name = false) :
    s.addStatement ((e.formOf a).toStatement n) =
        s.addAttribute ((e.formOf a).toStatement n) a.type ∧
      s.addAttribute ((e.formOf a).toStatement n) a.type =
        match e.columnOn? a.name with
        | none => { s with entity := s.entity.addAttribute (readAttribute e a n) }
        | some c =>
            { s with
              entity := ((s.entity.addAttribute (readAttribute e a n)).declareForeignKey
                c.ends.1 c.ends.2 c.binding []).1 } := by
  have hstatement := h.toStatement_formOf (a := a) n
  have hblock : ((e.formOf a).toStatement n).isEntityBlock = false := by
    simp [hstatement, Statement.isEntityBlock, h.name_ne_empty ha]
  have htype : NeutralType.ofName? ((e.formOf a).toStatement n).typeName = some a.type :=
    NeutralType.ofName?_name a.type
  have hname : ((e.formOf a).toStatement n).name = a.name := rfl
  have htags : tagOutcomes [] ((e.formOf a).toStatement n).tags = [] := by rw [hstatement]; rfl
  obtain ⟨hown, hlink, hrefusals⟩ := Statement.usesFor_formOf (a := a) (n := n) h
  constructor
  · rw [addStatement, hblock]
    simp only [Bool.false_eq_true, if_false, addField, htype, hname, hfree]
  · rw [addAttribute_eq, hown, hlink, hrefusals, Statement.tagUses, htags,
      (Statement.uses_formOf h).2, Statement.target?_formOf h]
    cases hc : e.columnOn? a.name with
    | none => simp [declareKey, report, readAttribute]
    | some c =>
        have horigin := (Entity.of_columnOn?_eq_some hc).2
        have hbinding : (⟨a.name, c.binding.referenced?⟩ : Binding) = c.binding := by rw [← horigin]
        simp [declareKey, report, readAttribute, hname, hbinding,
          Entity.duplicates_declareForeignKey_nil]

structure HasRead (s : Assembly) (e : Entity) (fields : List Attribute) : Prop where
  name : s.entity.name = e.name
  diagnostics : s.diagnostics = []
  links : s.entity.links = []
  attributes : s.entity.attributes.map Attribute.outline = fields.map Attribute.outline
  keys : s.entity.HasPlainKeys
  merges : s.entity.Merges (fields.filterMap fun a => e.columnOn? a.name)

theorem hasRead_ofName (e : Entity) : (ofName e.name).HasRead e [] :=
  ⟨rfl, rfl, rfl, rfl, by simp [Entity.HasPlainKeys, ofName, Entity.ofName],
    Entity.merges_ofName e.name⟩

theorem HasRead.names_eq {fields : List Attribute} (h : s.HasRead e fields) :
    s.entity.attributes.map Attribute.name = fields.map Attribute.name := by
  have hnames := congrArg (List.map Attribute.name) h.attributes
  rw [List.map_map, List.map_map] at hnames
  exact hnames

theorem HasRead.merges_addAttribute {fields : List Attribute} (h : s.HasRead e fields)
    (hwritable : e.IsWritable) :
    (s.addAttribute ((e.formOf a).toStatement n) a.type).entity.Merges
      ((fields ++ [a]).filterMap fun a => e.columnOn? a.name) := by
  have hmerges := Assembly.merges_addAttribute h.merges ((e.formOf a).toStatement n) a.type
  have hcolumns : (fields ++ [a]).filterMap (fun a => e.columnOn? a.name) =
      fields.filterMap (fun a => e.columnOn? a.name) ++ (e.columnOn? a.name).toList := by
    cases hc : e.columnOn? a.name <;> simp [hc]
  rwa [Statement.column?_formOf hwritable, ← hcolumns] at hmerges

theorem HasRead.addStatement {fields : List Attribute} (h : s.HasRead e fields)
    (hwritable : e.IsWritable) (ha : a ∈ e.attributes)
    (hmark : a.isForeignKey = (e.columnOn? a.name).isSome)
    (hnew : a.name ∉ fields.map Attribute.name) :
    (s.addStatement ((e.formOf a).toStatement n)).HasRead e (fields ++ [a]) := by
  have hfresh : a.name ∉ s.entity.attributes.map Attribute.name := by rwa [h.names_eq]
  have hfree : s.entity.hasField a.name = false := by
    rw [← Bool.not_eq_true, Entity.hasField_iff, Entity.fieldNames, h.links, List.map_nil,
      List.append_nil]
    exact hfresh
  have hmerges := h.merges_addAttribute (a := a) (n := n) hwritable
  obtain ⟨hstatement, hattribute⟩ := addStatement_formOf (n := n) hwritable ha hfree
  rw [hstatement]
  obtain ⟨hname, htype, hkey, hunmarked⟩ := frame_readAttribute e a n
  cases hc : e.columnOn? a.name with
  | none =>
      rw [hc] at hattribute hmark
      rw [hattribute] at hmerges ⊢
      refine ⟨h.name, h.diagnostics, h.links, ?_, h.keys, hmerges⟩
      have hsame : (readAttribute e a n).outline = a.outline :=
        Attribute.outline_congr hname htype hkey (hunmarked.trans hmark.symm)
      rw [Entity.addAttribute, List.map_append, List.map_append, h.attributes, List.map_singleton,
        hsame]
      rfl
  | some c =>
      rw [hc] at hattribute hmark
      rw [hattribute] at hmerges ⊢
      have horigin : c.binding.origin = (readAttribute e a n).name :=
        (Entity.of_columnOn?_eq_some hc).2.trans hname.symm
      have hplain : (s.entity.addAttribute (readAttribute e a n)).HasPlainKeys := h.keys
      have hkeys := hplain.declareForeignKey c.ends.1 c.ends.2 c.binding
      refine ⟨?_, h.diagnostics, ?_, ?_, hkeys, hmerges⟩
      · rw [Entity.name_declareForeignKey]
        exact h.name
      · rw [Entity.links_declareForeignKey]
        exact h.links
      · have hsame : ({ readAttribute e a n with isForeignKey := true } : Attribute).outline =
            a.outline := Attribute.outline_congr hname htype hkey hmark.symm
        rw [Entity.attributes_declareForeignKey, Entity.addAttribute, horigin,
          Entity.markForeignKey_concat (hname ▸ hfresh), List.map_append, List.map_append,
          h.attributes, List.map_singleton, hsame]
        rfl

theorem HasRead.foldl_addStatement {fields rest : List Attribute} (h : s.HasRead e fields)
    (hwritable : e.IsWritable)
    (hmarks : ∀ a ∈ e.attributes, a.isForeignKey = (e.columnOn? a.name).isSome)
    (hrest : rest ⊆ e.attributes) (hnames : ((fields ++ rest).map Attribute.name).Nodup) (n : Nat) :
    (((rest.map e.formOf).mapIdx fun i f => f.toStatement (i + n)).foldl
      Assembly.addStatement s).HasRead e (fields ++ rest) := by
  induction rest generalizing s fields n with
  | nil => simpa using h
  | cons a rest ih =>
      rw [List.cons_subset] at hrest
      have hnew : a.name ∉ fields.map Attribute.name := by
        rw [List.map_append, List.map_cons, List.nodup_middle, List.nodup_cons] at hnames
        exact fun hmem => hnames.1 (List.mem_append_left _ hmem)
      have hstep := h.addStatement (n := n) hwritable hrest.1 (hmarks a hrest.1) hnew
      have hrun := ih hstep hrest.2 (by simpa using hnames) (n + 1)
      rw [List.map_cons, List.mapIdx_cons, List.foldl_cons, Nat.zero_add]
      simpa [Nat.add_assoc, Nat.add_comm 1] using hrun

end Assembly

def Entity.readBack (e : Entity) : Entity :=
  (Entity.ofStatements e.name
    ((e.attributes.map e.formOf).mapIdx fun i f => f.toStatement (i + 2))).1

/-- With its keys in order, an entity without links is read back silently, up to what its text
leaves out. -/
theorem Source.readEntity_rendered {e : Entity} (hwritable : e.IsWritable) (hagree : e.KeysAgree)
    (hordered : e.HasOrderedKeys) (hnames : (e.attributes.map Attribute.name).Nodup)
    (hlinks : e.links = []) (hplain : e.HasPlainKeys) (config : Config) :
    (named e.name e.rendered).readEntity config = .ok (e.readBack, []) ∧
      e.readBack.outline = e.outline := by
  have hmarks : ∀ a ∈ e.attributes, a.isForeignKey = (e.columnOn? a.name).isSome := by
    intro a ha
    rw [Bool.eq_iff_iff, hagree.marked_iff a ha, Entity.isSome_columnOn?_iff]
  have hread := (Assembly.hasRead_ofName e).foldl_addStatement hwritable hmarks
    (List.Subset.refl e.attributes) hnames 2
  rw [List.nil_append] at hread
  have hkeys := (hordered.merges_fieldColumns hagree hnames).foreignKeys_eq hplain
  have hreadKeys := hread.merges.foreignKeys_eq hread.keys
  rw [hread.name] at hreadKeys
  have htext := hwritable.ofText_rendered (named e.name e.rendered).label
  constructor
  · rw [readEntity_of_declared hwritable.isEntityName htext]
    exact congrArg Except.ok (Prod.ext rfl hread.diagnostics)
  · rw [Entity.readBack, Entity.ofStatements, Entity.outline, Entity.outline, hread.name,
      hread.attributes, hreadKeys, hread.links, hkeys, hlinks]
    rfl

theorem Collection.foldl_addSource_rendered {config : Config} {entities : List Entity}
    (hread : ∀ e ∈ entities, (Source.named e.name e.rendered).readEntity config =
      .ok (e.readBack, []) ∧ e.readBack.outline = e.outline)
    (hnames : (entities.map Entity.name).Nodup) :
    let c := (entities.map fun e => Source.named e.name e.rendered).foldl (addSource config) empty
    c.model.IsKeyedByName ∧ c.diagnostics = [] ∧
      c.model.toList.map Entity.outline = entities.map Entity.outline := by
  intro c
  let results : List (Entity × Diagnostics) := entities.map fun e => (e.readBack, [])
  have hempty : empty.model.toList = [] := rfl
  have hc : c = results.foldl addReported empty := by
    apply foldl_addSource_eq
    rw [List.map_map, List.map_map]
    exact List.map_congr_left fun e he => (hread e he).1
  have houtlines : (results.map Prod.fst).map Entity.outline = entities.map Entity.outline := by
    rw [List.map_map, List.map_map]
    exact List.map_congr_left fun e he => (hread e he).2
  have hresults : ((empty.model.toList ++ results.map Prod.fst).map Entity.name).Nodup := by
    have heq : (results.map Prod.fst).map Entity.name = entities.map Entity.name := by
      rw [List.map_map, List.map_map]
      refine List.map_congr_left fun e he => ?_
      have hname : e.readBack.outline.name = e.outline.name := by rw [(hread e he).2]
      exact hname
    rwa [hempty, List.nil_append, heq]
  obtain ⟨hkeyed, hlist⟩ := foldl_addReported_of_nodup Model.isKeyedByName_empty hresults
  rw [hc]
  refine ⟨hkeyed, ?_, ?_⟩
  · rw [diagnostics_foldl_addReported_eq_nil_iff Model.isKeyedByName_empty]
    exact ⟨rfl, by simp [results], hresults⟩
  · rw [hlist, hempty, List.nil_append, houtlines]

end EntityModel
