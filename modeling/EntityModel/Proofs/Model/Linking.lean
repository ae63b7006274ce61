import EntityModel.Proofs.Entity.FieldNames
import Mathlib.Data.List.Basic

/-!
# The effect of linking

What the resolution of links adds to a model: which links each entity gets, and under which
names. Everything else stays as it is.
-/

namespace EntityModel

namespace ForeignKey

def linkParams (fk : ForeignKey) : ParamBag :=
  fk.linkAnnotations.foldl
    (fun bag use => use.kind.store (use.kind.linkEntries use.arguments) bag) .empty

end ForeignKey

namespace Link

def alongKey [Naming] (fk : ForeignKey) : Link where
  field := Naming.fieldName fk.referenced
  referenced := fk.referenced
  cardinality := .manyToOne
  isOwning := true
  isInverse := false
  basedOnForeignKey := true
  foreignKey? := some fk.name
  joinEntity? := none
  params := fk.linkParams

def backAlongKey [Naming] (suffix origin : String) (fk : ForeignKey) : Link where
  field := Naming.fieldName origin ++ suffix
  referenced := origin
  cardinality := .oneToMany
  isOwning := false
  isInverse := true
  basedOnForeignKey := false
  foreignKey? := some fk.name
  joinEntity? := none
  params := .empty

def throughJoin [Naming] (suffix join target : String) : Link where
  field := Naming.fieldName target ++ suffix
  referenced := target
  cardinality := .manyToMany
  isOwning := false
  isInverse := false
  basedOnForeignKey := false
  foreignKey? := none
  joinEntity? := some join
  params := .empty

def anonymous (l : Link) : Link := { l with field := "" }

end Link

namespace LinkPlan

private theorem foldl_applyToLink (uses : List AnnotationUse) (l : Link) :
    uses.foldl (fun l use => use.kind.applyToLink use.arguments l) l =
      { l with
        params := uses.foldl
          (fun bag use => use.kind.store (use.kind.linkEntries use.arguments) bag) l.params } := by
  induction uses generalizing l with
  | nil => rfl
  | cons use uses ih => exact ih (use.kind.applyToLink use.arguments l)

theorem along_eq [Naming] (origin : String) (fk : ForeignKey) :
    along origin fk = ⟨origin, .alongKey fk⟩ := by
  rw [along, foldl_applyToLink]
  rfl

theorem back_eq [Naming] (suffix origin : String) (fk : ForeignKey) :
    back suffix origin fk = ⟨fk.referenced, .backAlongKey suffix origin fk⟩ := rfl

theorem through_eq [Naming] (suffix join owner target : String) :
    through suffix join owner target = ⟨owner, .throughJoin suffix join target⟩ := rfl

end LinkPlan

namespace Entity

def named (e : Entity) : List Link → List Link
  | [] => []
  | l :: ls =>
      { l with field := e.freeFieldName l.field } :: (e.addNamed l).named ls

theorem addAllNamed_eq (e : Entity) (ls : List Link) :
    e.addAllNamed ls = { e with links := e.links ++ e.named ls } := by
  induction ls generalizing e with
  | nil => simp [addAllNamed, named]
  | cons l ls ih =>
      have hrest := ih (e.addNamed l)
      rw [addAllNamed, List.foldl_cons]
      refine hrest.trans ?_
      simp [addNamed, addLink, named]

theorem anonymous_named (e : Entity) (ls : List Link) :
    (e.named ls).map Link.anonymous = ls.map Link.anonymous := by
  induction ls generalizing e with
  | nil => rfl
  | cons l ls ih =>
      rw [named, List.map_cons, List.map_cons, ih]
      rfl

theorem exists_of_mem_named {e : Entity} {ls : List Link} {l : Link} (h : l ∈ e.named ls) :
    ∃ wanted ∈ ls, l.anonymous = wanted.anonymous := by
  have hmem : l.anonymous ∈ (e.named ls).map Link.anonymous := List.mem_map_of_mem h
  rw [anonymous_named] at hmem
  obtain ⟨wanted, hwanted, heq⟩ := List.mem_map.1 hmem
  exact ⟨wanted, hwanted, heq.symm⟩

end Entity

namespace Model

/-- The entity only joins two entities of the model. -/
def IsJoined (m : Model) (directions : LinkDirections) (e : Entity) : Prop :=
  directions.manyToMany = true ∧ e.foreignKeys.length = 2 ∧
    (∀ a ∈ e.attributes, a.isKey = true ∧ a.isForeignKey = true) ∧
    ∀ fk ∈ e.foreignKeys, m.contains fk.referenced = true

instance (m : Model) (directions : LinkDirections) (e : Entity) :
    Decidable (m.IsJoined directions e) := inferInstanceAs (Decidable (_ ∧ _ ∧ _ ∧ _))

/-- The links that the keys of `e` bring to the entity `owner`: from a joined entity, one for each
of its keys to `owner`; from any other, one along and one back for each key into the model. -/
def linksFrom [Naming] (m : Model) (directions : LinkDirections) (suffix owner : String)
    (e : Entity) : List Link :=
  if m.IsJoined directions e then
    match e.foreignKeys with
    | [a, b] =>
        (if a.referenced = owner then [.throughJoin suffix e.name b.referenced] else []) ++
          (if b.referenced = owner then [.throughJoin suffix e.name a.referenced] else [])
    | _ => []
  else
    (e.foreignKeys.filter fun fk => m.contains fk.referenced).flatMap fun fk =>
      (if directions.manyToOne ∧ e.name = owner then [.alongKey fk] else []) ++
        (if directions.oneToMany ∧ fk.referenced = owner then [.backAlongKey suffix e.name fk]
          else [])

def linksDue [Naming] (m : Model) (directions : LinkDirections) (suffix owner : String) :
    List Link :=
  m.toList.flatMap (m.linksFrom directions suffix owner)

variable {m : Model} {directions : LinkDirections} {e : Entity}

theorem linkPlans_of_isJoined [Naming] (suffix : String) (h : m.IsJoined directions e) :
    ∃ a b, e.foreignKeys = [a, b] ∧ m.linkPlans directions suffix e =
      [.through suffix e.name a.referenced b.referenced,
        .through suffix e.name b.referenced a.referenced] := by
  obtain ⟨henabled, hlength, hbound, hpresent⟩ := h
  obtain ⟨a, b, hkeys⟩ : ∃ a b, e.foreignKeys = [a, b] := List.length_eq_two.1 hlength
  have hfilter : (e.foreignKeys.filter fun fk => m.contains fk.referenced) = [a, b] := by
    rw [← hkeys]
    exact List.filter_eq_self.2 hpresent
  have hjoin : e.isJoin = true := by
    rw [Entity.isJoin, hlength, Bool.and_eq_true, List.all_eq_true]
    refine ⟨rfl, fun attr hattr => ?_⟩
    rw [Bool.and_eq_true]
    exact hbound attr hattr
  refine ⟨a, b, hkeys, ?_⟩
  simp only [linkPlans, henabled, hjoin, hfilter, Bool.and_self]

theorem linkPlans_of_not_isJoined [Naming] (suffix : String) (h : ¬ m.IsJoined directions e) :
    m.linkPlans directions suffix e =
      (e.foreignKeys.filter fun fk => m.contains fk.referenced).flatMap fun fk =>
        (if directions.manyToOne then [LinkPlan.along e.name fk] else []) ++
          (if directions.oneToMany then [LinkPlan.back suffix e.name fk] else []) := by
  simp only [linkPlans]
  split
  · rename_i first second hjoin hkeys
    rw [Bool.and_eq_true, Entity.isJoin, Bool.and_eq_true, beq_iff_eq, List.all_eq_true] at hjoin
    obtain ⟨henabled, hlength, hbound⟩ := hjoin
    -- both keys pass the filter, so both lead into the model
    have hcount : (e.foreignKeys.filter fun fk => m.contains fk.referenced).length =
        e.foreignKeys.length := by
      rw [hkeys, hlength]
      rfl
    have hpresent := List.length_filter_eq_length_iff.1 hcount
    refine absurd ⟨henabled, hlength, fun attr hattr => ?_, hpresent⟩ h
    exact Bool.and_eq_true_iff.1 (hbound attr hattr)
  · rfl

theorem links_linkPlans [Naming] (suffix owner : String) :
    ((m.linkPlans directions suffix e).filter fun p => p.owner = owner).map LinkPlan.link =
      m.linksFrom directions suffix owner e := by
  by_cases h : m.IsJoined directions e
  · obtain ⟨a, b, hkeys, hplans⟩ := linkPlans_of_isJoined suffix h
    rw [hplans, linksFrom, if_pos h, hkeys]
    simp only [LinkPlan.through_eq]
    by_cases ha : a.referenced = owner <;> by_cases hb : b.referenced = owner <;> simp [ha, hb]
  · rw [linkPlans_of_not_isJoined suffix h, linksFrom, if_neg h, List.filter_flatMap,
      List.map_flatMap]
    refine congrArg (List.flatMap · _) (funext fun fk => ?_)
    rw [List.filter_append, List.map_append, LinkPlan.along_eq, LinkPlan.back_eq]
    have halong : ((if directions.manyToOne then
        [(⟨e.name, .alongKey fk⟩ : LinkPlan)] else []).filter
        fun p => p.owner = owner).map LinkPlan.link =
          if directions.manyToOne ∧ e.name = owner then [.alongKey fk] else [] := by
      cases directions.manyToOne <;> by_cases hname : e.name = owner <;> simp [hname]
    have hback : ((if directions.oneToMany then
        [(⟨fk.referenced, .backAlongKey suffix e.name fk⟩ : LinkPlan)] else []).filter
        fun p => p.owner = owner).map LinkPlan.link =
          if directions.oneToMany ∧ fk.referenced = owner then [.backAlongKey suffix e.name fk]
          else [] := by
      cases directions.oneToMany <;> by_cases hname : fk.referenced = owner <;> simp [hname]
    rw [halong, hback]

theorem exists_of_mem_linksDue [Naming] {suffix owner : String} {l : Link}
    (h : l ∈ m.linksDue directions suffix owner) :
    ∃ e ∈ m.toList, ∃ fk ∈ e.foreignKeys, m.contains fk.referenced = true ∧
      (e.name = owner ∧ l = .alongKey fk ∨
        fk.referenced = owner ∧ l = .backAlongKey suffix e.name fk ∨
        l = .throughJoin suffix e.name fk.referenced) := by
  obtain ⟨e, he, hl⟩ := List.mem_flatMap.1 h
  refine ⟨e, he, ?_⟩
  rw [linksFrom] at hl
  split at hl
  · rename_i hjoined
    obtain ⟨-, hlength, -, hpresent⟩ := hjoined
    obtain ⟨a, b, hkeys⟩ : ∃ a b, e.foreignKeys = [a, b] := List.length_eq_two.1 hlength
    have ha : a ∈ e.foreignKeys := by simp [hkeys]
    have hb : b ∈ e.foreignKeys := by simp [hkeys]
    simp only [hkeys, List.mem_append, List.mem_ite_nil_right, List.mem_singleton] at hl
    rcases hl with ⟨-, rfl⟩ | ⟨-, rfl⟩
    · exact ⟨b, hb, hpresent b hb, .inr (.inr rfl)⟩
    · exact ⟨a, ha, hpresent a ha, .inr (.inr rfl)⟩
  · obtain ⟨fk, hfk, hl⟩ := List.mem_flatMap.1 hl
    obtain ⟨hfk, hpresent⟩ := List.mem_filter.1 hfk
    refine ⟨fk, hfk, hpresent, ?_⟩
    simp only [List.mem_append, List.mem_ite_nil_right, List.mem_singleton] at hl
    rcases hl with ⟨⟨-, hname⟩, rfl⟩ | ⟨⟨-, hname⟩, rfl⟩
    · exact .inl ⟨hname, rfl⟩
    · exact .inr (.inl ⟨hname, rfl⟩)

theorem names_addLink (m : Model) (p : LinkPlan) : (m.addLink p).names = m.names :=
  OrderedMap.keys_modify m.entities p.owner _

theorem entity?_addLink (m : Model) (p : LinkPlan) (name : String) :
    (m.addLink p).entity? name =
      if name = p.owner then (m.entity? name).map (·.addNamed p.link) else m.entity? name :=
  OrderedMap.find?_modify m.entities p.owner name _

theorem names_foldl_addLink (m : Model) (plans : List LinkPlan) :
    (plans.foldl addLink m).names = m.names := by
  induction plans generalizing m with
  | nil => rfl
  | cons p plans ih =>
      rw [List.foldl_cons, ih]
      exact names_addLink m p

/-- What becomes of an entity depends only on the plans that it owns. -/
theorem entity?_foldl_addLink (m : Model) (plans : List LinkPlan) (name : String) :
    (plans.foldl addLink m).entity? name =
      (m.entity? name).map
        (·.addAllNamed ((plans.filter fun p => p.owner = name).map LinkPlan.link)) := by
  induction plans generalizing m with
  | nil => simp [Entity.addAllNamed]
  | cons p plans ih =>
      rw [List.foldl_cons, ih, entity?_addLink]
      by_cases howner : name = p.owner
      · rw [if_pos howner, List.filter_cons_of_pos (by simp [howner]), Option.map_map]
        rfl
      · rw [if_neg howner, List.filter_cons_of_neg (by simpa using Ne.symm howner)]

theorem entity?_resolveLinks [Naming] (m : Model) (directions : LinkDirections)
    (suffix name : String) :
    (m.resolveLinks directions suffix).1.entity? name =
      (m.entity? name).map (·.addAllNamed (m.linksDue directions suffix name)) := by
  have hlinks : ((m.toList.flatMap (m.linkPlans directions suffix)).filter fun p =>
      p.owner = name).map LinkPlan.link = m.linksDue directions suffix name := by
    rw [List.filter_flatMap, List.map_flatMap, linksDue]
    exact congrArg (List.flatMap · m.toList) (funext fun e => links_linkPlans suffix name)
  rw [resolveLinks, entity?_foldl_addLink, hlinks]

theorem names_resolveLinks [Naming] (m : Model) (directions : LinkDirections) (suffix : String) :
    (m.resolveLinks directions suffix).1.names = m.names :=
  names_foldl_addLink m _

theorem contains_resolveLinks [Naming] (m : Model) (directions : LinkDirections)
    (suffix name : String) :
    (m.resolveLinks directions suffix).1.contains name = m.contains name := by
  rw [contains_eq_isSome, entity?_resolveLinks, Option.isSome_map, contains_eq_isSome]

theorem exists_of_mem_resolveLinks [Naming] {suffix : String}
    (he : e ∈ (m.resolveLinks directions suffix).1.toList) :
    ∃ name e₀, m.entity? name = some e₀ ∧
      e = { e₀ with links := e₀.links ++ e₀.named (m.linksDue directions suffix name) } := by
  obtain ⟨name, hname⟩ := mem_toList_iff.1 he
  rw [entity?_resolveLinks, Option.map_eq_some_iff] at hname
  obtain ⟨e₀, he₀, rfl⟩ := hname
  exact ⟨name, e₀, he₀, Entity.addAllNamed_eq e₀ _⟩

theorem IsKeyedByName.resolveLinks [Naming] (h : m.IsKeyedByName) (directions : LinkDirections)
    (suffix : String) : (m.resolveLinks directions suffix).1.IsKeyedByName := by
  rw [isKeyedByName_iff] at h ⊢
  intro name e he
  rw [entity?_resolveLinks, Option.map_eq_some_iff] at he
  obtain ⟨e₀, he₀, rfl⟩ := he
  rw [Entity.addAllNamed_eq]
  exact h name e₀ he₀

theorem Comprises.resolveLinks [Naming] {P : Entity → Prop} (h : m.Comprises P)
    (hP : ∀ e, P e → ∀ links, P { e with links := links }) (directions : LinkDirections)
    (suffix : String) : (m.resolveLinks directions suffix).1.Comprises P := by
  refine ⟨h.keyed.resolveLinks directions suffix, fun e he => ?_⟩
  obtain ⟨name, e₀, he₀, rfl⟩ := exists_of_mem_resolveLinks he
  exact hP e₀ (h.entities e₀ (mem_toList_iff.2 ⟨name, he₀⟩)) _

/-- The resolution of links appends to each entity the links that are due to it, each under a
free name, and changes nothing else; it reports each key that leads outside the model. -/
theorem resolveLinks_effect [Naming] (hm : m.IsKeyedByName) (directions : LinkDirections)
    (suffix : String) :
    (m.resolveLinks directions suffix).1.names = m.names ∧
      (∀ e ∈ m.toList, ∃ added,
        (m.resolveLinks directions suffix).1.entity? e.name =
            some { e with links := e.links ++ added } ∧
          added.map Link.anonymous = (m.linksDue directions suffix e.name).map Link.anonymous ∧
          added = e.named (m.linksDue directions suffix e.name)) ∧
      (m.resolveLinks directions suffix).2 = m.toList.flatMap fun e =>
        (e.foreignKeys.filter fun fk => !m.contains fk.referenced).map fun fk =>
          ⟨e.name, fk.firstField?, none, .unknownEntity fk.name fk.referenced⟩ := by
  refine ⟨names_foldl_addLink m _, fun e he => ?_, rfl⟩
  refine ⟨e.named (m.linksDue directions suffix e.name), ?_, Entity.anonymous_named _ _, rfl⟩
  rw [entity?_resolveLinks, hm.entity?_of_mem he, Option.map_some, Entity.addAllNamed_eq]

def people : Model where
  entities := {
    entries := [
      ("Person", { Entity.ofName "Person" with
        foreignKeys := [⟨"FK1", "Person", "Person", [⟨"parentId", none⟩], []⟩,
          ⟨"FK2", "Person", "Ghost", [⟨"ghostId", none⟩], []⟩] }),
      ("Tag", Entity.ofName "Tag"),
      ("PersonTag", { Entity.ofName "PersonTag" with
        foreignKeys := [⟨"FK3", "PersonTag", "Person", [⟨"personId", none⟩], []⟩,
          ⟨"FK4", "PersonTag", "Tag", [⟨"tagId", none⟩], []⟩] })]
    nodup_keys := by decide }

theorem resolveLinks_effect_people :
    ∃ added, (people.resolveLinks .all "List").1.entity? "Person" =
        some { Entity.ofName "Person" with
          foreignKeys := [⟨"FK1", "Person", "Person", [⟨"parentId", none⟩], []⟩,
            ⟨"FK2", "Person", "Ghost", [⟨"ghostId", none⟩], []⟩]
          links := added } ∧
      added.map (fun l => (l.referenced, l.cardinality, l.foreignKey?, l.joinEntity?)) =
        [("Person", .manyToOne, some "FK1", none), ("Person", .oneToMany, some "FK1", none),
          ("Tag", .manyToMany, none, some "PersonTag")] := by
  obtain ⟨-, heach, -⟩ := resolveLinks_effect (m := people) (by decide) .all "List"
  obtain ⟨added, hentity, hadded, -⟩ := heach _ (List.mem_cons_self ..)
  refine ⟨added, hentity, ?_⟩
  have hnames : added.map (fun l => (l.referenced, l.cardinality, l.foreignKey?, l.joinEntity?)) =
      (added.map Link.anonymous).map fun l =>
        (l.referenced, l.cardinality, l.foreignKey?, l.joinEntity?) := by
    rw [List.map_map]
    rfl
  rw [hnames, hadded]
  rfl

end Model

end EntityModel
