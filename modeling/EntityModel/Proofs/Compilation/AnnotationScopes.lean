import EntityModel.Proofs.Compilation.DefaultKeys
import EntityModel.Proofs.Entity.KeptAnnotations

/-!
# Annotations in their scopes

Whatever the annotations of the sources are, they leave their entries in a compiled model only where
they may stand: on attributes, on entities, and on links, which get those that foreign keys keep for
them.
-/

namespace EntityModel

/-- The link leads along this key of its entity: a key is known by its name and target. -/
def Link.IsAlong (l : Link) (fk : ForeignKey) : Prop :=
  l.foreignKey? = some fk.name ∧ l.referenced = fk.referenced

namespace Entity

/-- Annotations stay in their scopes: on an attribute, on the entity, on a link, and with a foreign
key for the link along it. An attribute that carries a column keeps none that may stand on a link;
the link along a key has those that the key keeps, which are of different kinds. -/
structure IsScoped (e : Entity) : Prop where
  attributes : ∀ a ∈ e.attributes, a.params.IsScoped .attribute
  params : e.params.IsScoped .entity
  links : ∀ l ∈ e.links, l.params.IsScoped .link
  linkAnnotations : ∀ fk ∈ e.foreignKeys, ∀ use ∈ fk.linkAnnotations, use.kind.allows .link = true
  nodup_kinds : ∀ fk ∈ e.foreignKeys, (fk.linkAnnotations.map AnnotationUse.kind).Nodup
  keyAttributes : ∀ a ∈ e.attributes, a.isForeignKey = true ∨ a.name ∈ e.boundFields →
    a.params.Excludes .link
  linksAlong : ∀ l ∈ e.links, l.cardinality = .manyToOne →
    ∃ fk ∈ e.foreignKeys, l.IsAlong fk ∧ (∀ other ∈ e.foreignKeys, l.IsAlong other → other = fk) ∧
      ∀ owner, l.params.has owner = true ↔ owner ∈ fk.linkAnnotations.map fun use => use.kind.name

/-- An entity of statements before its links are made: the given fields declare its attributes, its
keys differ in their ends, and its own annotations are in their scope. -/
structure IsDeclaredBy (e : Entity) (fields : List Statement) : Prop
    extends e.IsStated, e.KeepsFirst fields where
  keysAgree : e.KeysAgree
  isScoped_params : e.params.IsScoped .entity

theorem isDeclaredBy_ofStatements (name : String) (statements : List Statement) :
    (ofStatements name statements).1.IsDeclaredBy (Statement.declaring statements) where
  toIsStated := (isStated_ofStatements name statements).1
  toKeepsFirst := keepsFirst_ofStatements name statements
  keysAgree := (keysAgree_ofStatements name statements).1
  isScoped_params := isScoped_params_ofStatements name statements

variable {e : Entity} {fields : List Statement}

theorem KeepsFirst.completeEntity (h : e.KeepsFirst fields) (m : Model) :
    (m.completeEntity e).KeepsFirst fields := by
  refine ⟨h.attributes, fun fk hfk => ?_, fun fk hfk => ?_⟩
  all_goals
    obtain ⟨fk₀, hfk₀, rfl⟩ := List.mem_map.1 hfk
    have hsame := fk₀.sameColumns_completeIn m
    rw [hsame.name, hsame.referenced]
  · exact hsame.origins.trans (h.columns fk₀ hfk₀)
  · have hkept : (fk₀.completeIn m).1.linkAnnotations = fk₀.linkAnnotations := by
      rw [ForeignKey.completeIn]
      split <;> rfl
    exact hkept.trans (h.linkAnnotations fk₀ hfk₀)

theorem KeepsFirst.withLinks (h : e.KeepsFirst fields) (links : List Link) :
    ({ e with links := links } : Entity).KeepsFirst fields :=
  ⟨h.attributes, h.columns, h.linkAnnotations⟩

theorem IsDeclaredBy.completeEntity (h : e.IsDeclaredBy fields) (m : Model) :
    (m.completeEntity e).IsDeclaredBy fields where
  toIsStated := m.isStated_completeEntity h.toIsStated
  toKeepsFirst := h.toKeepsFirst.completeEntity m
  keysAgree := h.keysAgree.completeEntity m
  isScoped_params := h.isScoped_params

end Entity

namespace ForeignKey

theorem has_linkParams_iff {fk : ForeignKey} (hkept : ∀ use ∈ fk.linkAnnotations,
      use.kind.allows .link = true ∧ ∃ text line?, AnnotationUse.ofText text line? = .ok use)
    (owner : String) :
    fk.linkParams.has owner = true ↔ owner ∈ fk.linkAnnotations.map fun use => use.kind.name := by
  rw [linkParams, ParamBag.has_foldl_store, List.mem_map]
  constructor
  · rintro (hempty | ⟨use, huse, -, hname⟩)
    · cases hempty
    · exact ⟨use, huse, hname⟩
  · rintro ⟨use, huse, hname⟩
    obtain ⟨hlink, text, line?, hread⟩ := hkept use huse
    exact .inr ⟨use, huse, AnnotationUse.linkEntries_ne_nil hread hlink, hname⟩

end ForeignKey

namespace Model

variable [Naming] {m : Model} {directions : LinkDirections} {suffix owner : String} {e : Entity}

/-- A link of a model whose links have been resolved leads along a key of its entity, or it has no
parameters. -/
theorem cases_of_mem_named_linksDue (hm : m.IsKeyedByName) (he : m.entity? owner = some e)
    {l : Link} (hl : l ∈ e.named (m.linksDue directions suffix owner)) :
    (l.cardinality ≠ .manyToOne ∧ l.params = .empty) ∨
      ∃ fk ∈ e.foreignKeys, l.IsAlong fk ∧ l.params = fk.linkParams := by
  obtain ⟨due, hdue, hsame⟩ := Entity.exists_of_mem_named hl
  simp only [Link.anonymous, Link.mk.injEq] at hsame
  obtain ⟨-, hreferenced, hcardinality, -, -, -, hkey, -, hparams⟩ := hsame
  obtain ⟨origin, horigin, fk, hfk, -, hlink⟩ := exists_of_mem_linksDue hdue
  rcases hlink with ⟨hname, rfl⟩ | ⟨-, rfl⟩ | rfl
  · have hfound := hm.entity?_of_mem horigin
    rw [hname, he] at hfound
    obtain rfl := Option.some.inj hfound
    exact .inr ⟨fk, hfk, ⟨hkey, hreferenced⟩, hparams⟩
  all_goals
    refine .inl ⟨fun hone => ?_, hparams⟩
    rw [hcardinality] at hone
    cases hone

end Model

theorem Entity.IsDeclaredBy.isScoped {e : Entity} {fields : List Statement}
    (h : e.IsDeclaredBy fields) {links : List Link}
    (hlinks : ∀ l ∈ links, (l.cardinality ≠ .manyToOne ∧ l.params = .empty) ∨
      ∃ fk ∈ e.foreignKeys, l.IsAlong fk ∧ l.params = fk.linkParams) :
    ({ e with links := links } : Entity).IsScoped where
  attributes a ha := (h.of_mem_attributes ha).1
  params := h.isScoped_params
  links l hl := by
    rcases hlinks l hl with ⟨-, hparams⟩ | ⟨fk, hfk, -, hparams⟩
    · rw [hparams]
      exact ParamBag.isScoped_empty _
    · rw [hparams]
      exact (ParamBag.isScoped_empty _).foldl_store _ fun use huse =>
        (h.of_mem_linkAnnotations hfk huse).1
  linkAnnotations fk hfk use huse := (h.of_mem_linkAnnotations hfk huse).1
  nodup_kinds fk hfk := h.toKeepsFirst.nodup_kinds hfk
  keyAttributes a ha hbound :=
    (h.of_mem_attributes ha).2 (hbound.elim id (h.keysAgree.marked_iff a ha).2)
  linksAlong l hl hcardinality := by
    rcases hlinks l hl with ⟨hne, -⟩ | ⟨fk, hfk, halong, hparams⟩
    · exact absurd hcardinality hne
    · refine ⟨fk, hfk, halong, fun other hother halong' => ?_, fun owner => ?_⟩
      · refine List.inj_on_of_nodup_map h.nodup_keyEnds hother hfk (Prod.ext ?_ ?_)
        · exact Option.some.inj (halong'.1.symm.trans halong.1)
        · exact halong'.2.symm.trans halong.2
      · rw [hparams]
        exact fk.has_linkParams_iff (fun use huse => h.of_mem_linkAnnotations hfk huse) owner

theorem Source.isDeclaredBy_of_readEntity {s : Source} {config : Config}
    {result : Entity × Diagnostics} (hread : s.readEntity config = .ok result) :
    result.1.IsDeclaredBy (Statement.declaring s.statements) := by
  obtain ⟨definition, name, hdefinition, hentity, -⟩ := s.exists_definition_of_readEntity hread
  rw [statements, hdefinition, hentity]
  exact Entity.isDeclaredBy_ofStatements name definition.statements

/-- In a model compiled from sources, with or without diagnostics, annotations stay in their scopes.
Each entity comes from the first source that yields one of its name, and each of its foreign keys
keeps, of the annotations that its fields declare for the link, the first of each kind. -/
theorem isScoped_compileSources [Naming] (config : Config) (sources : List Source) :
    ∀ e ∈ (compileSources config sources).model.toList,
      e.IsScoped ∧ ∃ s, sources.find? (fun s => s.yields? config == some e.name) = some s ∧
        e.KeepsFirst (Statement.declaring s.statements) := by
  intro e he
  rw [compileSources_eq] at he
  have hkeyed := Collection.isKeyedByName_ofSources config sources
  obtain ⟨name, e₁, he₁, rfl⟩ := Model.exists_of_mem_resolveLinks he
  obtain ⟨e₀, he₀, rfl⟩ :=
    Model.mem_toList_complete_iff.1 (Model.mem_toList_iff.2 ⟨name, he₁⟩)
  obtain ⟨s, hs, found, hread⟩ := Collection.exists_source_of_mem_ofSources he₀
  have hdeclared := (Source.isDeclaredBy_of_readEntity hread).completeEntity
    (Collection.ofSources config sources).model
  refine ⟨?_, s, hs, hdeclared.toKeepsFirst.withLinks _⟩
  rw [hdeclared.links_eq_nil, List.nil_append]
  exact hdeclared.isScoped fun l hl => Model.cases_of_mem_named_linksDue hkeyed.complete he₁ hl

/-- Both fields of a booking say how its room is cascaded, and the annotation that the first of them
leaves to the link stands on a field without a key as well. -/
def bookings : List Source :=
  [.named "Room.entity" "Room \x7b hall : int \x7b @Id \x7d; no : int \x7b @Id \x7d; \x7d",
    .named "Booking.entity" ("Booking \x7b \x7b @ReadOnly \x7d;" ++
      "hall : int \x7b @FK(K, Room), @Cascade(ALL), @JsonBackReference \x7d;" ++
      "no : int \x7b @FK(K, Room), @Fetch(LAZY), @Cascade(MERGE) \x7d;" ++
      "note : string \x7b @JsonBackReference \x7d; \x7d")]

theorem isScoped_compileSources_bookings :
    ∃ e ∈ (compileSources .default bookings).model.toList, e.IsScoped ∧
      (e.attributes.map fun a => a.params.namespaces.keys) =
        [["FK"], ["FK"], ["JsonBackReference"]] ∧
      (e.links.map fun l => l.params.namespaces.keys) =
        [["Cascade", "JsonBackReference", "Fetch"]] := by
  have hbooking : ((compileSources .default bookings).model.entity? "Booking").map
      (fun e => ((e.attributes.map fun a => a.params.namespaces.keys),
        e.links.map fun l => l.params.namespaces.keys)) =
      some ([["FK"], ["FK"], ["JsonBackReference"]],
        [["Cascade", "JsonBackReference", "Fetch"]]) := by
    decide +kernel
  obtain ⟨e, he, hnamespaces⟩ := Option.map_eq_some_iff.1 hbooking
  have hmem := Model.mem_toList_iff.2 ⟨_, he⟩
  exact ⟨e, hmem, (isScoped_compileSources .default bookings e hmem).1,
    Prod.mk.inj hnamespaces⟩

end EntityModel
