import EntityModel.Proofs.Compilation.SilentStages

/-!
# Outlines

The outline of an entity is what a compilation looks at after its parts have been collected: names,
types, marks, foreign keys and links. The stages commute with the passage to outlines, so that
models with one outline get the same links and are silent together.
-/

namespace EntityModel

def Attribute.outline (a : Attribute) : Attribute :=
  { Attribute.ofType a.name a.type with isKey := a.isKey, isForeignKey := a.isForeignKey }

theorem Attribute.outline_congr {a a' : Attribute} (hname : a.name = a'.name)
    (htype : a.type = a'.type) (hkey : a.isKey = a'.isKey)
    (hforeignKey : a.isForeignKey = a'.isForeignKey) : a.outline = a'.outline := by
  rw [outline, outline, hname, htype, hkey, hforeignKey]

/-- The entity without parameters, tags and table, and with the outlines of its attributes. -/
def Entity.outline (e : Entity) : Entity :=
  { Entity.ofName e.name with
    attributes := e.attributes.map Attribute.outline
    foreignKeys := e.foreignKeys
    links := e.links }

namespace Entity

theorem fieldNames_outline (e : Entity) : e.outline.fieldNames = e.fieldNames := by
  simp [fieldNames, outline, Attribute.outline, Attribute.ofType]

theorem freeFieldName_outline (e : Entity) (wanted : String) :
    e.outline.freeFieldName wanted = e.freeFieldName wanted := by
  have hfield (name : String) : e.outline.hasField name = e.hasField name := by
    rw [Bool.eq_iff_iff, hasField_iff, hasField_iff, fieldNames_outline]
  have hlength : e.outline.attributes.length = e.attributes.length := by simp [outline]
  have hlinks : e.outline.links = e.links := rfl
  simp only [freeFieldName, hfield, hlength, hlinks]

theorem addNamed_outline (e : Entity) (l : Link) :
    e.outline.addNamed l = (e.addNamed l).outline := by
  rw [addNamed, freeFieldName_outline]
  rfl

theorem addAllNamed_outline (e : Entity) (ls : List Link) :
    e.outline.addAllNamed ls = (e.addAllNamed ls).outline := by
  induction ls generalizing e with
  | nil => rfl
  | cons l ls ih =>
      rw [addAllNamed, List.foldl_cons, addNamed_outline]
      exact ih (e.addNamed l)

end Entity

namespace Model

def outline (m : Model) : Model := ⟨m.entities.mapValues fun _ e => e.outline⟩

variable {m : Model}

theorem toList_outline (m : Model) : m.outline.toList = m.toList.map Entity.outline := by
  simp [toList, outline, OrderedMap.values, OrderedMap.mapValues]

theorem entity?_outline (m : Model) (name : String) :
    m.outline.entity? name = (m.entity? name).map Entity.outline :=
  OrderedMap.find?_mapValues m.entities (fun _ e => e.outline) name

theorem contains_outline (m : Model) (name : String) :
    m.outline.contains name = m.contains name := by
  rw [contains_eq_isSome, entity?_outline, Option.isSome_map, contains_eq_isSome]

theorem IsKeyedByName.outline (h : m.IsKeyedByName) : m.outline.IsKeyedByName := by
  rw [isKeyedByName_iff] at h ⊢
  intro name e he
  rw [entity?_outline, Option.map_eq_some_iff] at he
  obtain ⟨e₀, he₀, rfl⟩ := he
  exact h name e₀ he₀

theorem resolves_outline_iff {fk : ForeignKey} : m.outline.Resolves fk ↔ m.Resolves fk := by
  have hnames (R : Entity) :
      R.outline.attributes.map Attribute.name = R.attributes.map Attribute.name := by
    simp [Entity.outline, Attribute.outline, Attribute.ofType]
  simp only [Resolves, entity?_outline, Option.map_eq_some_iff]
  constructor
  · rintro ⟨_, ⟨R, hR, rfl⟩, hnamed⟩
    rw [hnames] at hnamed
    exact ⟨R, hR, hnamed⟩
  · rintro ⟨R, hR, hnamed⟩
    exact ⟨R.outline, ⟨R, hR, rfl⟩, by rwa [hnames]⟩

theorem keyOccurrences_outline (m : Model) :
    m.outline.keyOccurrences =
      m.keyOccurrences.map fun o => { o with line? := none } := by
  have hline (e : Entity) (field : String) :
      (e.outline.attribute? field).bind Attribute.line? = none := by
    cases hfound : e.outline.attribute? field with
    | none => rfl
    | some a =>
        obtain ⟨a₀, -, rfl⟩ := List.mem_map.1 (List.mem_of_find?_eq_some hfound)
        rfl
  simp only [keyOccurrences, toList_outline, List.flatMap_map, List.map_flatMap, List.map_map, hline]
  rfl

theorem checkKeyNames_outline_eq_nil_iff :
    m.outline.checkKeyNames = [] ↔ m.checkKeyNames = [] := by
  rw [checkKeyNames_eq_nil_iff, checkKeyNames_eq_nil_iff, keyOccurrences_outline]
  simp only [List.forall_mem_map]
  rfl

section Links

variable [Naming] (directions : LinkDirections) (suffix : String)

theorem linksDue_outline (m : Model) (owner : String) :
    m.outline.linksDue directions suffix owner = m.linksDue directions suffix owner := by
  have hjoined (e : Entity) :
      m.outline.IsJoined directions e.outline ↔ m.IsJoined directions e := by
    simp only [IsJoined, contains_outline, Entity.outline, List.forall_mem_map]
    rfl
  have hfrom (e : Entity) : m.outline.linksFrom directions suffix owner e.outline =
      m.linksFrom directions suffix owner e := by
    simp only [linksFrom, hjoined, contains_outline]
    rfl
  simp only [linksDue, toList_outline, List.flatMap_map, hfrom]

theorem IsKeyedByName.toList_resolveLinks_outline (h : m.IsKeyedByName) :
    (m.outline.resolveLinks directions suffix).1.toList =
      (m.resolveLinks directions suffix).1.toList.map Entity.outline := by
  rw [h.outline.toList_resolveLinks, h.toList_resolveLinks, toList_outline, List.map_map,
    List.map_map]
  refine List.map_congr_left fun e _ => ?_
  simp only [Function.comp_apply, linksDue_outline, ← Entity.addAllNamed_outline]
  rfl

end Links

end Model

/-- Of two batches with the same outlines, both collected silently, the second one compiles silently
if the first one does and has its keys resolved. The outlines stay the same. -/
theorem Compilation.ofCollection_of_outlines [Naming] {c c' : Collection}
    (hkeyed : c.model.IsKeyedByName) (hkeyed' : c'.model.IsKeyedByName)
    (hsilent : c.diagnostics = []) (hsilent' : c'.diagnostics = [])
    (hkeys : ∀ e ∈ c.model.toList, ∀ fk ∈ e.foreignKeys, c.model.Resolves fk)
    (heq : c'.model.toList.map Entity.outline = c.model.toList.map Entity.outline)
    (directions : LinkDirections) (suffix : String)
    (hvalid : (ofCollection directions suffix c).diagnostics = []) :
    (ofCollection directions suffix c').diagnostics = [] ∧
      (ofCollection directions suffix c').model.toList.map Entity.outline =
        (ofCollection directions suffix c).model.toList.map Entity.outline := by
  have houtline : c'.model.outline = c.model.outline := by
    apply hkeyed'.outline.eq_of_toList_eq hkeyed.outline
    rw [Model.toList_outline, Model.toList_outline, heq]
  have hkeys' : ∀ e ∈ c'.model.toList, ∀ fk ∈ e.foreignKeys, c'.model.Resolves fk := by
    intro e he fk hfk
    have hmem : e.outline ∈ c.model.toList.map Entity.outline := heq ▸ List.mem_map_of_mem he
    obtain ⟨e₀, he₀, hsame⟩ := List.mem_map.1 hmem
    have hfk' : fk ∈ e₀.outline.foreignKeys := by
      rw [hsame]
      exact hfk
    rw [← Model.resolves_outline_iff, houtline, Model.resolves_outline_iff]
    exact hkeys e₀ he₀ fk hfk'
  rw [ofCollection_of_resolves hkeyed hsilent hkeys] at hvalid ⊢
  rw [ofCollection_of_resolves hkeyed' hsilent' hkeys']
  constructor
  · rw [← Model.checkKeyNames_outline_eq_nil_iff, houtline,
      Model.checkKeyNames_outline_eq_nil_iff]
    exact hvalid
  · rw [← hkeyed.toList_resolveLinks_outline, ← hkeyed'.toList_resolveLinks_outline, houtline]

end EntityModel
