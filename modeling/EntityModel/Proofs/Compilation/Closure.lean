import EntityModel.Proofs.Compilation.Entities
import EntityModel.Proofs.Model.Completion
import EntityModel.Proofs.Model.KeyNames
import EntityModel.Proofs.Model.Linking

/-!
# Closed models

In a model compiled from sources without diagnostics, every reference leads to something: those
of foreign keys, of their columns and of links. What one stage of the compilation leaves to
another is caught there.
-/

namespace EntityModel

namespace Model

/-- The target of a key is in the model, and its columns are attributes at both ends. -/
def KeyIsClosed (m : Model) (e : Entity) (fk : ForeignKey) : Prop :=
  ∃ target, m.entity? fk.referenced = some target ∧
    ∀ b ∈ fk.bindings, (∃ a ∈ e.attributes, b.origin = a.name) ∧
      ∃ a ∈ target.attributes, b.referenced? = some a.name

def LinkIsClosed (m : Model) (e : Entity) (l : Link) : Prop :=
  ∃ target, m.entity? l.referenced = some target ∧
    match l.cardinality with
    | .manyToOne => l.joinEntity? = none ∧ ∃ fk ∈ e.foreignKeys, l.foreignKey? = some fk.name
    | .oneToMany => l.joinEntity? = none ∧ ∃ fk ∈ target.foreignKeys, l.foreignKey? = some fk.name
    | .manyToMany => l.foreignKey? = none ∧ ∃ join ∈ m.toList, l.joinEntity? = some join.name

/-- No reference leads out of the model, and a key name stands for one key. -/
structure IsClosed (m : Model) : Prop where
  keyed : m.IsKeyedByName
  keys : ∀ e ∈ m.toList, ∀ fk ∈ e.foreignKeys, m.KeyIsClosed e fk
  links : ∀ e ∈ m.toList, ∀ l ∈ e.links, m.LinkIsClosed e l
  keyNames : m.keyNames.Nodup

variable {m : Model} {e : Entity}

theorem keyIsClosed_completeEntity (hbuilt : e.IsBuilt)
    (hpresent : ∀ fk ∈ e.foreignKeys, m.contains fk.referenced = true)
    (hcomplete : ∀ fk ∈ e.foreignKeys, (fk.completeIn m).2 = []) :
    ∀ fk ∈ (m.completeEntity e).foreignKeys, m.complete.1.KeyIsClosed (m.completeEntity e) fk := by
  intro fk hfk
  obtain ⟨fk₀, hfk₀, rfl⟩ := List.mem_map.1 hfk
  have hsame := fk₀.sameColumns_completeIn m
  obtain ⟨target, htarget⟩ : ∃ target, m.entity? fk₀.referenced = some target :=
    Option.isSome_iff_exists.1 (hpresent fk₀ hfk₀)
  refine ⟨m.completeEntity target, ?_, fun b hb => ⟨?_, ?_⟩⟩
  · rw [hsame.referenced, entity?_complete, htarget]
    rfl
  · have hbound := hsame.keyIsBound (hbuilt.keys fk₀ hfk₀)
    obtain ⟨a, ha, heq⟩ := List.mem_map.1 (hbound.origins b hb)
    exact ⟨a, ha, heq.symm⟩
  · exact ForeignKey.exists_attribute_of_completeIn htarget (hcomplete fk₀ hfk₀) b hb

theorem LinkIsClosed.of_anonymous {l l' : Link} (h : m.LinkIsClosed e l)
    (heq : l'.anonymous = l.anonymous) : m.LinkIsClosed e l' := by
  simp only [Link.anonymous, Link.mk.injEq] at heq
  obtain ⟨-, hreferenced, hcardinality, -, -, -, hkey, hjoin, -⟩ := heq
  rw [LinkIsClosed, hreferenced, hcardinality, hkey, hjoin]
  exact h

section Links

variable [Naming] {directions : LinkDirections} {suffix : String}

theorem KeyIsClosed.resolveLinks {fk : ForeignKey} (h : m.KeyIsClosed e fk) (links : List Link) :
    (m.resolveLinks directions suffix).1.KeyIsClosed { e with links := links } fk := by
  obtain ⟨target, htarget, hbindings⟩ := h
  refine ⟨target.addAllNamed (m.linksDue directions suffix fk.referenced), ?_, ?_⟩
  · rw [entity?_resolveLinks, htarget]
    rfl
  · rw [Entity.addAllNamed_eq]
    exact hbindings

theorem linkIsClosed_of_mem_linksDue (hm : m.IsKeyedByName) {owner : String} {e : Entity}
    (he : m.entity? owner = some e) (links : List Link) {l : Link}
    (hl : l ∈ m.linksDue directions suffix owner) :
    (m.resolveLinks directions suffix).1.LinkIsClosed { e with links := links } l := by
  have hfind {name : String} (h : m.contains name = true) :
      ∃ target, (m.resolveLinks directions suffix).1.entity? name = some target := by
    rw [← contains_resolveLinks m directions suffix name] at h
    exact Option.isSome_iff_exists.1 h
  obtain ⟨origin, horigin, fk, hfk, hpresent, hlink⟩ := exists_of_mem_linksDue hl
  have hfound := hm.entity?_of_mem horigin
  have hentity : (m.resolveLinks directions suffix).1.entity? origin.name =
      some (origin.addAllNamed (m.linksDue directions suffix origin.name)) := by
    rw [entity?_resolveLinks, hfound]
    rfl
  rcases hlink with ⟨hname, rfl⟩ | ⟨-, rfl⟩ | rfl
  · obtain ⟨target, htarget⟩ := hfind hpresent
    obtain rfl : e = origin := by
      rw [hname, he] at hfound
      exact Option.some.inj hfound
    exact ⟨target, htarget, rfl, fk, hfk, rfl⟩
  · refine ⟨_, hentity, rfl, fk, ?_, rfl⟩
    rw [Entity.addAllNamed_eq]
    exact hfk
  · obtain ⟨target, htarget⟩ := hfind hpresent
    refine ⟨target, htarget, rfl, _, mem_toList_iff.2 ⟨_, hentity⟩, ?_⟩
    rw [Entity.addAllNamed_eq]
    rfl

theorem isClosed_resolveLinks (hm : m.Comprises Entity.IsStated)
    (hkeys : ∀ e ∈ m.toList, ∀ fk ∈ e.foreignKeys, m.KeyIsClosed e fk)
    (hnames : (m.resolveLinks directions suffix).1.checkKeyNames = []) :
    (m.resolveLinks directions suffix).1.IsClosed := by
  have hkeyed := hm.keyed.resolveLinks directions suffix
  refine ⟨hkeyed, ?_, ?_, ?_⟩
  · intro e he fk hfk
    obtain ⟨name, e₀, he₀, rfl⟩ := exists_of_mem_resolveLinks he
    have hmem := mem_toList_iff.2 ⟨name, he₀⟩
    exact (hkeys e₀ hmem fk hfk).resolveLinks _
  · intro e he l hl
    obtain ⟨name, e₀, he₀, rfl⟩ := exists_of_mem_resolveLinks he
    have hstated := hm.entities e₀ (mem_toList_iff.2 ⟨name, he₀⟩)
    rw [hstated.links_eq_nil, List.nil_append] at hl
    obtain ⟨due, hdue, heq⟩ := Entity.exists_of_mem_named hl
    exact (linkIsClosed_of_mem_linksDue hm.keyed he₀ _ hdue).of_anonymous heq
  · apply nodup_keyNames hkeyed _ _ hnames
    · intro e he fk hfk
      obtain ⟨name, e₀, he₀, rfl⟩ := exists_of_mem_resolveLinks he
      have hstated := hm.entities e₀ (mem_toList_iff.2 ⟨name, he₀⟩)
      exact (hstated.keys fk hfk).bindings_ne_nil
    · intro e he
      obtain ⟨name, e₀, he₀, rfl⟩ := exists_of_mem_resolveLinks he
      have hstated := hm.entities e₀ (mem_toList_iff.2 ⟨name, he₀⟩)
      exact hstated.nodup_keyEnds

end Links

end Model

namespace Compilation

variable [Naming] {directions : LinkDirections} {suffix : String} {c : Collection}

theorem stages_of_isValid (h : (ofCollection directions suffix c).isValid = true) :
    (∀ e ∈ c.model.toList, ∀ fk ∈ e.foreignKeys, (fk.completeIn c.model).2 = []) ∧
      (∀ e ∈ c.model.complete.1.toList, ∀ fk ∈ e.foreignKeys,
        c.model.complete.1.contains fk.referenced = true) ∧
      (c.model.complete.1.resolveLinks directions suffix).1.checkKeyNames = [] := by
  have hnil : c.diagnostics ++ c.model.complete.2 ++
      (c.model.complete.1.resolveLinks directions suffix).2 ++
      (c.model.complete.1.resolveLinks directions suffix).1.checkKeyNames = [] :=
    List.isEmpty_iff.1 h
  simp only [List.append_eq_nil_iff] at hnil
  obtain ⟨⟨⟨-, hcompletion⟩, hdangling⟩, hnames⟩ := hnil
  refine ⟨fun e he fk hfk => ?_, fun e he fk hfk => ?_, hnames⟩
  · have hentity := List.flatMap_eq_nil_iff.1 hcompletion e he
    have hkey := List.flatMap_eq_nil_iff.1 hentity fk hfk
    exact List.map_eq_nil_iff.1 hkey
  · have hentity := List.flatMap_eq_nil_iff.1 hdangling e he
    have hkeys := List.filter_eq_nil_iff.1 (List.map_eq_nil_iff.1 hentity) fk hfk
    simpa using hkeys

/-- What the stages leave to each other: completion skips the keys that lead nowhere, which the
resolution of links reports, and the check of names sees every key. -/
theorem isClosed_ofCollection (hc : c.model.Comprises Entity.IsStated)
    (h : (ofCollection directions suffix c).isValid = true) :
    (ofCollection directions suffix c).model.IsClosed := by
  obtain ⟨hcomplete, hpresent, hnames⟩ := stages_of_isValid h
  have hcompleted := hc.complete fun e he => c.model.isStated_completeEntity he
  have hkeys : ∀ e ∈ c.model.complete.1.toList, ∀ fk ∈ e.foreignKeys,
      c.model.complete.1.KeyIsClosed e fk := by
    intro e he
    obtain ⟨e₀, he₀, rfl⟩ := Model.mem_toList_complete_iff.1 he
    apply Model.keyIsClosed_completeEntity (hc.entities e₀ he₀).toIsBuilt
    · intro fk hfk
      have htarget := hpresent _ he _ (List.mem_map_of_mem hfk)
      rw [(fk.sameColumns_completeIn c.model).referenced, Model.contains_complete] at htarget
      exact htarget
    · exact hcomplete e₀ he₀
  exact Model.isClosed_resolveLinks hcompleted hkeys hnames

end Compilation

/-- A model compiled from sources without diagnostics is closed. -/
theorem isClosed_compileSources [Naming] (config : Config) (sources : List Source)
    (h : (compileSources config sources).isValid = true) :
    (compileSources config sources).model.IsClosed :=
  Compilation.isClosed_ofCollection (Collection.comprises_sources config sources) h

def library : List Source :=
  [.named "Person.entity" "Person \x7b id : Long \x7b @Id \x7d; \x7d",
    .named "Book.entity"
      "Book \x7b id : Long \x7b @Id \x7d; author : Long \x7b @FK(Person) \x7d; \x7d",
    .named "Loan.entity"
      "Loan \x7b p : Long \x7b @Id, @FK(Person) \x7d; b : Long \x7b @Id, @FK(Book.id) \x7d; \x7d"]

theorem isClosed_compileSources_library :
    (compileSources .default library).model.IsClosed ∧
      (compileSources .default library).model.keyNames =
        ["FK_Book_author", "FK_Loan_p", "FK_Loan_b"] :=
  ⟨isClosed_compileSources .default library (by decide +kernel), by decide +kernel⟩

end EntityModel
