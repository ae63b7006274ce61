import EntityModel.Proofs.Compilation.ReadingBack
import Mathlib.Data.List.Flatten

/-!
# Schemas and sources

The model of a schema can be rendered entity by entity. If the foreign keys of each table are in
order, the sources compile to the model again, up to what the text leaves out.
-/

namespace EntityModel

section FrontEnds

variable [Naming]

def TableKey.fields (key : TableKey) : List String :=
  key.columnPairs.map fun pair => attributeNameOf pair.1

def Table.place (t : Table) (field : String) : Nat := t.fieldNames.idxOf field

/-- Names can be written, and keys are told apart by what is written of them: no two stand on one
attribute or have the same name and target, and they are listed in the order of the attributes. -/
structure Table.IsRenderable (t : Table) : Prop where
  isEntityName : Text.isEntityName (entityNameOf t.name).toList = true
  isIdentifier : ∀ field ∈ t.fieldNames, Text.isIdentifier field.toList = true
  nodup_fields : (t.foreignKeys.flatMap TableKey.fields).Nodup
  nodup_ends : (t.foreignKeys.map TableKey.ends).Nodup
  keys : t.foreignKeys.Pairwise fun key key' =>
    ∀ field ∈ key.fields.head?, ∀ field' ∈ key'.fields.head?, t.place field < t.place field'
  fields : ∀ key ∈ t.foreignKeys,
    key.fields.Pairwise fun field field' => t.place field < t.place field'
  quote_notMem : ∀ key ∈ t.foreignKeys, '\'' ∉ key.name.toList
  newline_notMem : ∀ key ∈ t.foreignKeys, '\n' ∉ key.name.toList

variable {t : Table} {key : TableKey}

theorem Table.origins_foreignKeyOf (h : t.IsSound) (hkey : key ∈ t.foreignKeys) :
    (t.foreignKeyOf key).bindings.map Binding.origin = key.fields := by
  rw [foreignKeyOf, bindingsOf_of_isSound h hkey, List.map_map]
  rfl

theorem Table.firstField?_foreignKeyOf (h : t.IsSound) (hkey : key ∈ t.foreignKeys) :
    (t.foreignKeyOf key).firstField? = key.fields.head? := by
  rw [ForeignKey.firstField?, ← List.head?_map, origins_foreignKeyOf h hkey]

theorem Table.isImplicit_foreignKeyOf (h : t.IsSound) (hkey : key ∈ t.foreignKeys) :
    (t.foreignKeyOf key).isImplicit = false := by
  rw [ForeignKey.isImplicit, foreignKeyOf, bindingsOf_of_isSound h hkey]
  simp

namespace Entity

theorem exists_key_of_mem_foreignKeys {fk : ForeignKey} (h : fk ∈ (ofTable t).1.foreignKeys) :
    ∃ key ∈ t.foreignKeys, fk = t.foreignKeyOf key := by
  rw [foreignKeys_ofTable] at h
  obtain ⟨key, hkey, rfl⟩ := List.mem_map.1 h
  exact ⟨key, (List.mem_filter.1 hkey).1, rfl⟩

theorem hasPlainKeys_ofTable (t : Table) : (ofTable t).1.HasPlainKeys := by
  intro fk hfk
  obtain ⟨key, -, rfl⟩ := exists_key_of_mem_foreignKeys hfk
  exact ⟨(name_ofTable t).symm, rfl⟩

theorem place_ofTable (h : t.IsSound) (field : String) :
    (ofTable t).1.place field = t.place field := by
  rw [place, names_ofTable h, Table.place]

theorem hasOrderedKeys_ofTable (h : t.IsSound) (hr : t.IsRenderable) :
    (ofTable t).1.HasOrderedKeys := by
  have hsublist : (t.foreignKeys.filter t.binds).Sublist t.foreignKeys := List.filter_sublist
  refine ⟨?_, ?_, fun fk hfk => ?_, ?_⟩
  · have hfields : (ofTable t).1.boundFields =
        (t.foreignKeys.filter t.binds).flatMap TableKey.fields := by
      rw [boundFields, foreignKeys_ofTable, List.flatMap_map]
      exact List.flatMap_congr fun key hkey =>
        Table.origins_foreignKeyOf h (List.mem_filter.1 hkey).1
    rw [hfields]
    exact hr.nodup_fields.sublist (hsublist.flatMap _)
  · rw [keyEnds_ofTable]
    exact hr.nodup_ends.sublist (hsublist.map _)
  · obtain ⟨key, hkey, rfl⟩ := exists_key_of_mem_foreignKeys hfk
    have hfields := hr.fields key hkey
    rw [← Table.origins_foreignKeyOf h hkey, List.pairwise_map] at hfields
    simpa only [place_ofTable h] using hfields
  · rw [foreignKeys_ofTable, List.pairwise_map]
    refine (hr.keys.sublist hsublist).imp_of_mem fun {key key'} hkey hkey' hlt => ?_
    rw [Table.firstField?_foreignKeyOf h (List.mem_filter.1 hkey).1,
      Table.firstField?_foreignKeyOf h (List.mem_filter.1 hkey').1]
    simpa only [place_ofTable h] using hlt

end Entity

namespace Schema

variable {schema : Schema}

theorem stages_of_compileSchema {config : Config}
    (h : (compileSchema config schema).diagnostics = []) :
    schema.collected.diagnostics = [] ∧
      ∀ e ∈ schema.collected.model.toList, ∀ fk ∈ e.foreignKeys,
        schema.collected.model.Resolves fk := by
  have hsilent : schema.collected.diagnostics = [] := by
    have hparts : schema.collected.diagnostics ++ _ ++ _ ++ _ = [] := h
    simp only [List.append_eq_nil_iff] at hparts
    exact hparts.1.1.1
  obtain ⟨hsound, hnames⟩ := diagnostics_collected_eq_nil_iff.1 hsilent
  refine ⟨hsilent, fun e he fk hfk => ?_⟩
  have hvalid : (compileSchema config schema).isValid = true := List.isEmpty_iff.2 h
  refine Compilation.resolves_of_isValid hvalid he hfk ?_
  rw [(collected_of_nodup hnames).2] at he
  obtain ⟨t, ht, rfl⟩ := List.mem_map.1 he
  obtain ⟨key, hkey, rfl⟩ := Entity.exists_key_of_mem_foreignKeys hfk
  exact Table.isImplicit_foreignKeyOf (hsound t ht) hkey

theorem isWritable_ofTable (hsilent : schema.collected.diagnostics = [])
    (hkeys : ∀ e ∈ schema.collected.model.toList, ∀ fk ∈ e.foreignKeys,
      schema.collected.model.Resolves fk)
    (hr : ∀ t ∈ schema.tables, t.IsRenderable) (ht : t ∈ schema.tables) :
    (Entity.ofTable t).1.IsWritable := by
  obtain ⟨hsound, hnames⟩ := diagnostics_collected_eq_nil_iff.1 hsilent
  obtain ⟨hkeyed, hlist⟩ := collected_of_nodup hnames
  have he : (Entity.ofTable t).1 ∈ schema.collected.model.toList :=
    hlist ▸ List.mem_map_of_mem ht
  refine ⟨?_, fun a ha => ?_, fun c hc => ?_⟩
  · rw [Entity.name_ofTable]
    exact (hr t ht).isEntityName
  · have hmem := List.mem_map_of_mem (f := Attribute.name) ha
    rw [Entity.names_ofTable (hsound t ht)] at hmem
    exact (hr t ht).isIdentifier a.name hmem
  · obtain ⟨fk, hfk, hends, hb⟩ := Entity.mem_keyColumns_iff.1 hc
    obtain ⟨R, hR, hnamed⟩ := hkeys _ he fk hfk
    obtain ⟨hmem, hname⟩ := hkeyed.entity?_eq_some_iff.1 hR
    rw [hlist] at hmem
    obtain ⟨t', ht', rfl⟩ := List.mem_map.1 hmem
    obtain ⟨key, hkey, rfl⟩ := Entity.exists_key_of_mem_foreignKeys hfk
    rw [Entity.name_ofTable] at hname
    rw [Entity.names_ofTable (hsound t' ht')] at hnamed
    constructor
    · rw [hends]
      exact (hr t ht).quote_notMem key hkey
    · rw [hends]
      exact (hr t ht).newline_notMem key hkey
    · rw [hends, ← hname]
      exact (hr t' ht').isEntityName
    · obtain ⟨field, hfield, hreferenced⟩ := hnamed c.binding hb
      rw [hreferenced]
      intro attr hattr
      obtain rfl : field = attr := Option.some.inj hattr
      exact (hr t' ht').isIdentifier field hfield

/-- Each table of a silently collected schema is rendered and read back. -/
theorem readEntity_ofTable (hsilent : schema.collected.diagnostics = [])
    (hkeys : ∀ e ∈ schema.collected.model.toList, ∀ fk ∈ e.foreignKeys,
      schema.collected.model.Resolves fk)
    (hr : ∀ t ∈ schema.tables, t.IsRenderable) (ht : t ∈ schema.tables) (config : Config) :
    (Source.named (Entity.ofTable t).1.name (Entity.ofTable t).1.rendered).readEntity config =
        .ok ((Entity.ofTable t).1.readBack, []) ∧
      (Entity.ofTable t).1.readBack.outline = (Entity.ofTable t).1.outline := by
  have hsound := (diagnostics_collected_eq_nil_iff.1 hsilent).1 t ht
  have hbuilt := Entity.isBuilt_ofTable t
  refine Source.readEntity_rendered (isWritable_ofTable hsilent hkeys hr ht)
    (Entity.keysAgree_ofTable t) (Entity.hasOrderedKeys_ofTable hsound (hr t ht))
    hbuilt.nodup_names hbuilt.links_eq_nil (Entity.hasPlainKeys_ofTable t) config

end Schema

/-- One source for each entity, with the name of the entity as file name. -/
def Model.renderedSources (m : Model) : List Source :=
  m.toList.map fun e => .named e.name e.rendered

theorem Model.IsKeyedByName.renderedSources_resolveLinks {m : Model} (h : m.IsKeyedByName)
    (directions : LinkDirections) (suffix : String) :
    (m.resolveLinks directions suffix).1.renderedSources = m.renderedSources := by
  rw [renderedSources, h.toList_resolveLinks, List.map_map, renderedSources]
  refine List.map_congr_left fun e _ => ?_
  rw [Function.comp_apply, Entity.addAllNamed_eq]
  rfl

/-- The two ways to a model agree: if a schema compiles silently and its tables can be rendered, the
rendered entities compile silently to the same entities in the same order, with their attributes,
foreign keys and links. -/
theorem compileSources_renderedSources {schema : Schema}
    (hsilent : (compileSchema .default schema).diagnostics = [])
    (hrenderable : ∀ t ∈ schema.tables, t.IsRenderable) :
    let compiled := compileSchema .default schema
    let again := compileSources .default compiled.model.renderedSources
    again.diagnostics = [] ∧
      again.model.toList.map Entity.outline = compiled.model.toList.map Entity.outline := by
  intro compiled again
  obtain ⟨hcollected, hkeys⟩ := Schema.stages_of_compileSchema hsilent
  obtain ⟨-, hnames⟩ := Schema.diagnostics_collected_eq_nil_iff.1 hcollected
  obtain ⟨hkeyed, hlist⟩ := Schema.collected_of_nodup hnames
  have hsources : compiled.model.renderedSources = schema.collected.model.renderedSources := by
    have hmodel := congrArg Compilation.model
      (Compilation.ofCollection_of_resolves hkeyed hcollected hkeys .all Config.default.listSuffix)
    rw [← hkeyed.renderedSources_resolveLinks .all Config.default.listSuffix]
    exact congrArg Model.renderedSources hmodel
  have hread : ∀ e ∈ schema.collected.model.toList,
      (Source.named e.name e.rendered).readEntity .default = .ok (e.readBack, []) ∧
        e.readBack.outline = e.outline := by
    intro e he
    rw [hlist] at he
    obtain ⟨t, ht, rfl⟩ := List.mem_map.1 he
    exact Schema.readEntity_ofTable hcollected hkeys hrenderable ht .default
  obtain ⟨hkeyed', hcollected', houtlines⟩ :=
    Collection.foldl_addSource_rendered hread hkeyed.nodup_names
  have hagain : again = Compilation.ofCollection .all Config.default.listSuffix
      (schema.collected.model.renderedSources.foldl (Collection.addSource .default) .empty) := by
    rw [← hsources]
    rfl
  rw [hagain]
  exact Compilation.ofCollection_of_outlines hkeyed hkeyed' hcollected hcollected' hkeys houtlines
    .all Config.default.listSuffix hsilent

end FrontEnds

def enrolments : Schema where
  tables :=
    [⟨"STUDENT",
        [(Column.ofType "ID" 4).asPrimaryKey, Column.ofType "NAME" 12, Column.ofType "MENTOR_ID" 4],
        [⟨"FK_MENTOR", "STUDENT", [("MENTOR_ID", "ID")]⟩]⟩,
      ⟨"COURSE", [(Column.ofType "SCHOOL" 12).asPrimaryKey, (Column.ofType "NO" 5).asPrimaryKey], []⟩,
      ⟨"ENROLMENT",
        [(Column.ofType "STUDENT_ID" 4).asPrimaryKey, (Column.ofType "SCHOOL" 12).asPrimaryKey,
          (Column.ofType "COURSE_NO" 5).asPrimaryKey],
        [⟨"FK_STUDENT", "STUDENT", [("STUDENT_ID", "ID")]⟩,
          ⟨"FK_COURSE", "COURSE", [("SCHOOL", "SCHOOL"), ("COURSE_NO", "NO")]⟩]⟩]

theorem compileSources_renderedSources_enrolments :
    let compiled := compileSchema .default enrolments
    (∀ t ∈ enrolments.tables, t.IsRenderable) ∧ compiled.diagnostics = [] ∧
      compiled.model.renderedSources.map Source.text =
        ["Student \x7b\nid : int \x7b Id \x7d ;\nname : string \x7b  \x7d ;\n" ++
            "mentorId : int \x7b FK('FK_MENTOR', 'Student.id') \x7d ;\n\x7d\n",
          "Course \x7b\nschool : string \x7b Id \x7d ;\nno : short \x7b Id \x7d ;\n\x7d\n",
          "Enrolment \x7b\nstudentId : int \x7b Id, FK('FK_STUDENT', 'Student.id') \x7d ;\n" ++
            "school : string \x7b Id, FK('FK_COURSE', 'Course.school') \x7d ;\n" ++
            "courseNo : short \x7b Id, FK('FK_COURSE', 'Course.no') \x7d ;\n\x7d\n"] ∧
      (compileSources .default compiled.model.renderedSources).model.toList.map Entity.outline =
        compiled.model.toList.map Entity.outline := by
  have hrenderable : ∀ t ∈ enrolments.tables, t.IsRenderable := by
    intro t ht
    simp only [enrolments, List.mem_cons, List.not_mem_nil, or_false] at ht
    rcases ht with rfl | rfl | rfl <;>
      exact ⟨by decide +kernel, by decide +kernel, by decide +kernel, by decide +kernel,
        by decide +kernel, by decide +kernel, by decide +kernel, by decide +kernel⟩
  have hsilent : (compileSchema .default enrolments).diagnostics = [] := by decide +kernel
  exact ⟨hrenderable, hsilent, by decide +kernel,
    (compileSources_renderedSources hsilent hrenderable).2⟩

end EntityModel
