import Mathlib.Data.List.Forall2
import Mathlib.Data.List.Perm.Basic
import EntityModel.Proofs.Json.RoundTrip

/-!
# Order of the members of an object

The order in which an object lists its members says nothing: a writer may keep the order of
insertion or sort by key. No reader depends on it. From two JSON values that differ in the order
of members alone a model is read either twice or not at all, and the two models differ at most in
the order in which their maps list their entries.
-/

namespace EntityModel

section Rel

variable {α β : Type} {r : α → α → Prop} {s : β → β → Prop}

private theorem rel_bind {x y : Option α} {f g : α → Option β} (h : Option.Rel r x y)
    (hfg : ∀ a b, r a b → Option.Rel s (f a) (g b)) : Option.Rel s (x.bind f) (y.bind g) := by
  cases h with
  | none => exact .none
  | some hab => exact hfg _ _ hab

private theorem rel_map {x y : Option α} {f g : α → β} (h : Option.Rel r x y)
    (hfg : ∀ a b, r a b → s (f a) (g b)) : Option.Rel s (x.map f) (y.map g) := by
  cases h with
  | none => exact .none
  | some hab => exact .some (hfg _ _ hab)

private theorem rel_of_eq {x y : Option α} (h : x = y) : Option.Rel Eq x y := by
  subst h
  cases x with
  | none => exact .none
  | some a => exact .some rfl

private theorem eq_of_rel {x y : Option α} (h : Option.Rel Eq x y) : x = y := by
  cases h with
  | none => rfl
  | some hab => rw [hab]

private theorem isSome_of_rel {x y : Option α} (h : Option.Rel r x y) : x.isSome = y.isSome := by
  cases h <;> rfl

end Rel

private theorem lookup_eq_some_iff {β : Type} {entries : List (String × β)}
    (hkeys : (entries.map Prod.fst).Nodup) {key : String} {value : β} :
    entries.lookup key = some value ↔ (key, value) ∈ entries :=
  OrderedMap.find?_eq_some_iff (m := ⟨entries, hkeys⟩)

namespace Json

/-- The two values are the same up to the order in which their objects, which have no key twice,
list their members. -/
inductive SameValue : Json → Json → Prop
  | null : SameValue .null .null
  | bool (value : Bool) : SameValue (.bool value) (.bool value)
  | integer (value : Int) : SameValue (.integer value) (.integer value)
  | decimal (digits : Int) (places : Nat) :
      SameValue (.decimal digits places) (.decimal digits places)
  | string (value : String) : SameValue (.string value) (.string value)
  | array {xs ys : List Json} : List.Forall₂ SameValue xs ys → SameValue (.array xs) (.array ys)
  | object {ms ns : List (String × Json)} :
      (ms.map Prod.fst).Nodup → (ms.map Prod.fst).Perm (ns.map Prod.fst) →
      (∀ key, Option.Rel SameValue (ms.lookup key) (ns.lookup key)) →
      SameValue (.object ms) (.object ns)

def SameMembers (ms ns : List (String × Json)) : Prop :=
  ∀ key, Option.Rel SameValue (ms.lookup key) (ns.lookup key)

theorem SameValue.of_perm {ms ns : List (String × Json)} (hms : (ms.map Prod.fst).Nodup)
    (hperm : ms.Perm ns) (hself : ∀ e ∈ ms, SameValue e.2 e.2) :
    SameValue (.object ms) (.object ns) := by
  have hkeys := hperm.map Prod.fst
  refine .object hms hkeys fun key => ?_
  have hlookup : ms.lookup key = ns.lookup key := by
    refine Option.ext fun j => ?_
    rw [lookup_eq_some_iff hms, lookup_eq_some_iff (hkeys.nodup_iff.1 hms), hperm.mem_iff]
  rw [← hlookup]
  cases hj : ms.lookup key with
  | none => exact .none
  | some j => exact .some (hself _ ((lookup_eq_some_iff hms).1 hj))

@[simp] theorem sameValue_self_object {ms : List (String × Json)} :
    SameValue (.object ms) (.object ms) ↔
      (ms.map Prod.fst).Nodup ∧ ∀ e ∈ ms, SameValue e.2 e.2 := by
  constructor
  · rintro (_ | _ | _ | _ | _ | _ | ⟨hms, -, h⟩)
    refine ⟨hms, fun e he => ?_⟩
    have hkey := h e.1
    rw [(lookup_eq_some_iff hms).2 he] at hkey
    exact Option.rel_some_some.1 hkey
  · rintro ⟨hms, hself⟩
    exact .of_perm hms (.refl ms) hself

@[simp] theorem sameValue_self_array {xs : List Json} :
    SameValue (.array xs) (.array xs) ↔ ∀ j ∈ xs, SameValue j j := by
  rw [← List.forall₂_same]
  exact ⟨fun h => by cases h; assumption, .array⟩

variable {α : Type} {r : α → α → Prop} {read : Json → Option α}

/-- From values that are the same the reader reads related things, or nothing. -/
def Respects (r : α → α → Prop) (read : Json → Option α) : Prop :=
  ∀ ⦃j j'⦄, SameValue j j' → Option.Rel r (read j) (read j')

theorem respects_bool? : Respects Eq bool? := by
  rintro j j' (_ | _)
  all_goals exact rel_of_eq rfl

theorem respects_string? : Respects Eq string? := by
  rintro j j' (_ | _)
  all_goals exact rel_of_eq rfl

theorem respects_integerIn? (low high : Int) : Respects Eq (integerIn? low high) := by
  rintro j j' (_ | _)
  all_goals exact rel_of_eq rfl

theorem respects_line? : Respects Eq line? := by
  intro j j' h
  exact rel_map (respects_integerIn? _ _ h) fun _ _ h => congrArg Int.toNat h

theorem respects_nullable? (hread : Respects Eq read) : Respects Eq (nullable? read) := by
  intro j j' h
  cases h with
  | null => exact .some rfl
  | _ => exact rel_map (hread (by constructor <;> assumption)) fun _ _ h => congrArg some h

theorem respects_list? (hread : Respects r read) :
    Respects (List.Forall₂ r) (list? read) := by
  intro j j' h
  cases h with
  | array hxs =>
      simp only [list?]
      induction hxs with
      | nil => exact .some .nil
      | cons hx _ ih =>
          simp only [List.mapM_cons]
          refine rel_bind (hread hx) fun a b hab => rel_bind ih fun as bs habs => ?_
          exact .some (.cons hab habs)
  | _ => exact .none

theorem respects_list?_eq (hread : Respects Eq read) : Respects Eq (list? read) := by
  intro j j' h
  rw [← List.forall₂_eq_eq_eq]
  exact respects_list? hread h

theorem SameMembers.singleton {name : String} {value : Json} {ns : List (String × Json)}
    (h : SameMembers [(name, value)] ns) (hkeys : [name].Perm (ns.map Prod.fst)) :
    ∃ value', ns = [(name, value')] ∧ SameValue value value' := by
  have hname := List.perm_singleton.1 hkeys.symm
  obtain ⟨⟨name', value'⟩, rfl⟩ : ∃ n, ns = [n] := List.length_eq_one_iff.1 (by
    simpa using congrArg List.length hname)
  obtain rfl : name' = name := by simpa using hname
  have hvalue := h name'
  rw [List.lookup_cons_self, List.lookup_cons_self, Option.rel_some_some] at hvalue
  exact ⟨value', rfl, hvalue⟩

private theorem singletons_of_perm {ms ns : List (String × Json)}
    (hkeys : (ms.map Prod.fst).Perm (ns.map Prod.fst)) (h : SameMembers ms ns) :
    (∃ name value value', ms = [(name, value)] ∧ ns = [(name, value')] ∧ SameValue value value') ∨
      ms.length ≠ 1 ∧ ns.length ≠ 1 := by
  have hlength : ms.length = ns.length := by simpa using hkeys.length_eq
  by_cases hone : ms.length = 1
  · obtain ⟨⟨name, value⟩, rfl⟩ := List.length_eq_one_iff.1 hone
    obtain ⟨value', hns, hvalue⟩ := h.singleton hkeys
    exact .inl ⟨name, value, value', rfl, hns, hvalue⟩
  · exact .inr ⟨hone, hlength ▸ hone⟩

private theorem taggedCase?_of_length {ms : List (String × Json)} (h : ms.length ≠ 1) :
    taggedCase? (.object ms) = none := by
  match ms with
  | [] => rfl
  | [_] => exact absurd rfl h
  | _ :: _ :: _ => rfl

private theorem case?_of_length {ms : List (String × Json)} (h : ms.length ≠ 1) :
    case? (.object ms) = none := by
  match ms with
  | [] => rfl
  | [_] => exact absurd rfl h
  | (_, value) :: _ :: _ => cases value <;> rfl

theorem respects_taggedCase? :
    Respects (fun a b => a.1 = b.1 ∧ SameValue a.2 b.2) taggedCase? := by
  rintro j j' (_ | _ | _ | _ | _ | _ | ⟨-, hkeys, h⟩)
  case object =>
      rcases singletons_of_perm hkeys h with ⟨name, value, value', rfl, rfl, hvalue⟩ | ⟨hms, hns⟩
      · exact .some ⟨rfl, hvalue⟩
      · rw [taggedCase?_of_length hms, taggedCase?_of_length hns]
        exact .none
  all_goals exact .none

theorem respects_case? : Respects Eq case? := by
  rintro j j' (_ | _ | _ | _ | _ | _ | ⟨-, hkeys, h⟩)
  case object =>
      rcases singletons_of_perm hkeys h with ⟨name, value, value', rfl, rfl, hvalue⟩ | ⟨hms, hns⟩
      · cases hvalue <;> exact rel_of_eq rfl
      · rw [case?_of_length hms, case?_of_length hns]
        exact .none
  all_goals exact rel_of_eq rfl

theorem respects_named? [DecidableEq α] (all : List α) (name : α → String) :
    Respects Eq (named? all name) := by
  intro j j' h
  rw [named?, named?, eq_of_rel (respects_case? h)]
  exact rel_of_eq rfl

theorem respects_members? : Respects SameMembers members? := by
  rintro j j' (_ | _ | _ | _ | _ | _ | ⟨-, -, h⟩)
  case object => exact .some h
  all_goals exact .none

theorem SameMembers.member {ms ns : List (String × Json)} (h : SameMembers ms ns) (key : String)
    (hread : Respects r read) :
    Option.Rel r (Json.member ms key read) (Json.member ns key read) :=
  rel_bind (h key) fun _ _ hj => hread hj

theorem SameMembers.member? {ms ns : List (String × Json)} (h : SameMembers ms ns) (key : String)
    (hread : Respects Eq read) :
    Option.Rel Eq (Json.member? ms key read) (Json.member? ns key read) := by
  have hkey := h key
  simp only [Json.member?]
  generalize ms.lookup key = j? at hkey ⊢
  generalize ns.lookup key = j'? at hkey ⊢
  cases hkey with
  | none => exact .some rfl
  | some hj => exact respects_nullable? hread hj

end Json

open Json (Respects)

namespace OrderedMap

variable {α β : Type} [DecidableEq α] {r : β → β → Prop}

/-- The maps have the same keys, with related values under each. -/
def Agrees (r : β → β → Prop) (m m' : OrderedMap α β) : Prop :=
  ∀ key, Option.Rel r (m.find? key) (m'.find? key)

variable {read : Json → Option β} {ms : List (String × Json)}

private theorem forall₂_of_mapM {entries : List (String × β)}
    (h : ms.mapM (fun e => (read e.2).bind fun value => some (e.1, value)) = some entries) :
    List.Forall₂ (fun e entry => e.1 = entry.1 ∧ read e.2 = some entry.2) ms entries := by
  induction ms generalizing entries with
  | nil =>
      obtain rfl : [] = entries := by simpa using h
      exact .nil
  | cons e ms ih =>
      simp only [List.mapM_cons, Option.bind_eq_bind, Option.pure_def, Option.bind_eq_some_iff,
        Option.some.injEq] at h
      obtain ⟨_, ⟨value, hvalue, rfl⟩, rest, hrest, rfl⟩ := h
      exact .cons ⟨rfl, hvalue⟩ (ih hrest)

private theorem isSome_of_forall₂ {entries : List (String × β)}
    (h : List.Forall₂ (fun e entry => e.1 = entry.1 ∧ read e.2 = some entry.2) ms entries)
    {e : String × Json} (he : e ∈ ms) : (read e.2).isSome = true := by
  induction h with
  | nil => cases he
  | cons hentry _ ih =>
      rcases List.mem_cons.1 he with rfl | he
      · rw [hentry.2]
        rfl
      · exact ih he

private theorem exists_mapM (h : ∀ e ∈ ms, (read e.2).isSome = true) :
    ∃ entries, ms.mapM (fun e => (read e.2).bind fun value => some (e.1, value)) =
      some entries := by
  induction ms with
  | nil => exact ⟨[], rfl⟩
  | cons e ms ih =>
      obtain ⟨value, hvalue⟩ := Option.isSome_iff_exists.1 (h e List.mem_cons_self)
      obtain ⟨entries, hentries⟩ := ih fun e' he' => h e' (List.mem_cons_of_mem e he')
      exact ⟨(e.1, value) :: entries, by simp [List.mapM_cons, hvalue, hentries]⟩

private theorem lookup_of_forall₂ {entries : List (String × β)}
    (h : List.Forall₂ (fun e entry => e.1 = entry.1 ∧ read e.2 = some entry.2) ms entries)
    (key : String) : entries.lookup key = (ms.lookup key).bind read := by
  induction h with
  | nil => rfl
  | @cons e entry ms entries he _ ih =>
      by_cases hkey : key = e.1
      · rw [List.lookup_cons, List.lookup_cons, ← he.1, hkey]
        simp [he.2]
      · have hb : (key == e.1) = false := by simpa using hkey
        rw [List.lookup_cons, List.lookup_cons, ← he.1, hb]
        exact ih

private theorem keys_of_forall₂ {entries : List (String × β)}
    (h : List.Forall₂ (fun e entry => e.1 = entry.1 ∧ read e.2 = some entry.2) ms entries) :
    entries.map Prod.fst = ms.map Prod.fst := by
  induction h with
  | nil => rfl
  | cons he _ ih => rw [List.map_cons, List.map_cons, ih, he.1]

theorem find?_of_ofJson? (hkeys : (ms.map Prod.fst).Nodup) {m : OrderedMap String β}
    (h : ofJson? read (.object ms) = some m) (key : String) :
    m.find? key = (ms.lookup key).bind read := by
  simp only [ofJson?, Json.members?, Option.bind_eq_bind, Option.bind_some, Option.pure_def,
    Option.bind_eq_some_iff, Option.some.injEq] at h
  obtain ⟨entries, hentries, rfl⟩ := h
  have hread := forall₂_of_mapM (by simpa using hentries)
  rw [find?, entries_ofList (keys_of_forall₂ hread ▸ hkeys)]
  exact lookup_of_forall₂ hread key

/-- A map is read from an object if and only if a value is read from every member. -/
theorem exists_ofJson?_iff (hkeys : (ms.map Prod.fst).Nodup) :
    (∃ m, ofJson? read (.object ms) = some m) ↔
      ∀ key, ((ms.lookup key).bind read).isSome = (ms.lookup key).isSome := by
  simp only [ofJson?, Json.members?, Option.bind_eq_bind, Option.bind_some, Option.pure_def,
    Option.bind_eq_some_iff, Option.some.injEq]
  constructor
  · rintro ⟨m, entries, hentries, -⟩ key
    cases hkey : ms.lookup key with
    | none => rfl
    | some j =>
        exact isSome_of_forall₂ (forall₂_of_mapM hentries) ((lookup_eq_some_iff hkeys).1 hkey)
  · intro h
    obtain ⟨entries, hentries⟩ := exists_mapM fun e he => by
      have hread := h e.1
      rwa [(lookup_eq_some_iff hkeys).2 he] at hread
    exact ⟨_, entries, hentries, rfl⟩

theorem respects_ofJson? (hread : Respects r read) : Respects (Agrees r) (ofJson? read) := by
  rintro j j' (_ | _ | _ | _ | _ | _ | ⟨hms, hkeys, h⟩)
  case object ms ns =>
      have hns := hkeys.nodup_iff.1 hms
      have hreads (key : String) :
          Option.Rel r ((ms.lookup key).bind read) ((ns.lookup key).bind read) :=
        rel_bind (h key) fun _ _ hj => hread hj
      have hiff : (∃ m, ofJson? read (.object ms) = some m) ↔
          ∃ m, ofJson? read (.object ns) = some m := by
        rw [exists_ofJson?_iff hms, exists_ofJson?_iff hns]
        refine forall_congr' fun key => ?_
        rw [isSome_of_rel (hreads key), isSome_of_rel (h key)]
      cases hm : ofJson? read (.object ms) with
      | none =>
          have hn : ofJson? read (.object ns) = none := by
            refine Option.eq_none_iff_forall_ne_some.2 fun m hm' => ?_
            obtain ⟨m', hm''⟩ := hiff.2 ⟨m, hm'⟩
            rw [hm] at hm''
            cases hm''
          rw [hn]
          exact .none
      | some m =>
          obtain ⟨m', hm'⟩ := hiff.1 ⟨m, hm⟩
          rw [hm']
          refine .some fun key => ?_
          rw [find?_of_ofJson? hms hm, find?_of_ofJson? hns hm']
          exact hreads key
  all_goals exact .none

end OrderedMap

theorem ParamValue.respects_ofJson? : Respects Eq ofJson? := by
  intro j j' h
  refine rel_bind (Json.respects_taggedCase? h) ?_
  rintro ⟨name, value⟩ ⟨name', value'⟩ ⟨rfl, hvalue⟩
  have hstrings := Json.respects_list?_eq Json.respects_string?
  by_cases hflag : name = "Flag"
  · subst hflag
    exact rel_bind (Json.respects_bool? hvalue) fun _ _ h => .some (congrArg flag h)
  by_cases htext : name = "Text"
  · subst htext
    exact rel_bind (Json.respects_string? hvalue) fun _ _ h => .some (congrArg text h)
  by_cases hinteger : name = "Integer"
  · subst hinteger
    refine rel_bind (Json.respects_integerIn? _ _ hvalue) fun _ _ h => .some ?_
    rw [h]
  by_cases hlist : name = "List"
  · subst hlist
    exact rel_bind (hstrings hvalue) fun _ _ h => .some (congrArg list h)
  simp [hflag, htext, hinteger, hlist]

def ParamBag.Agrees (bag bag' : ParamBag) : Prop :=
  bag.namespaces.Agrees (OrderedMap.Agrees Eq) bag'.namespaces

theorem ParamBag.respects_ofJson? : Respects Agrees ofJson? := by
  intro j j' h
  have hspaces := OrderedMap.respects_ofJson? ParamValue.respects_ofJson?
  exact rel_map (OrderedMap.respects_ofJson? hspaces h) fun _ _ h => h

theorem Tags.respects_ofJson? : Respects (OrderedMap.Agrees Eq) ofJson? :=
  OrderedMap.respects_ofJson? (Json.respects_nullable? Json.respects_string?)

theorem Arguments.respects_ofJson? : Respects Eq ofJson? := by
  intro j j' h
  have htagged := Json.respects_taggedCase? h
  simp only [ofJson?, eq_of_rel (Json.respects_case? h)]
  generalize j'.case? = case?
  generalize j.taggedCase? = x at htagged ⊢
  generalize j'.taggedCase? = y at htagged ⊢
  by_cases hnone : case? = some "None"
  · subst hnone
    exact .some rfl
  cases htagged with
  | none => simp
  | @some a b hab =>
      obtain ⟨name, value⟩ := a
      obtain ⟨name', value'⟩ := b
      obtain ⟨rfl, hvalue⟩ : name = name' ∧ value.SameValue value' := hab
      have hstring := eq_of_rel (Json.respects_string? hvalue)
      have hstrings := eq_of_rel (Json.respects_list?_eq Json.respects_string? hvalue)
      by_cases hsingle : name = "Single"
      · subst hsingle
        simp only [hstring]
        exact rel_of_eq rfl
      by_cases hlist : name = "List"
      · subst hlist
        simp only [hstrings]
        exact rel_of_eq rfl
      simp [hsingle, hlist]

theorem AnnotationUse.respects_ofJson? : Respects Eq ofJson? := by
  intro j j' h
  refine rel_bind (Json.respects_members? h) fun ms ns hms => ?_
  refine rel_bind (hms.member "kind" (Json.respects_named? _ _)) fun kind _ hkind => ?_
  refine rel_bind (hms.member "params" Arguments.respects_ofJson?) fun arguments _ harguments => ?_
  refine rel_bind (hms.member? "line" Json.respects_line?) fun line? _ hline => .some ?_
  rw [hkind, harguments, hline]

theorem Binding.respects_ofJson? : Respects Eq ofJson? := by
  intro j j' h
  refine rel_bind (Json.respects_members? h) fun ms ns hms => ?_
  refine rel_bind (hms.member "origin_attribute" Json.respects_string?) fun origin _ ho => ?_
  refine rel_bind (hms.member? "referenced_attribute" Json.respects_string?) fun _ _ hr => .some ?_
  rw [ho, hr]

theorem ForeignKey.respects_ofJson? : Respects Eq ofJson? := by
  intro j j' h
  refine rel_bind (Json.respects_members? h) fun ms ns hms => ?_
  refine rel_bind (hms.member "name" Json.respects_string?) fun _ _ hname => ?_
  refine rel_bind (hms.member "origin_entity_name" Json.respects_string?) fun _ _ horigin => ?_
  refine rel_bind (hms.member "referenced_entity_name" Json.respects_string?) fun _ _ href => ?_
  refine rel_bind (hms.member "bindings" (Json.respects_list?_eq Binding.respects_ofJson?))
    fun _ _ hbindings => ?_
  refine rel_bind
    (hms.member "link_annotations" (Json.respects_list?_eq AnnotationUse.respects_ofJson?))
    fun _ _ huses => .some ?_
  rw [hname, horigin, href, hbindings, huses]

/-- The attributes are equal if maps are compared as maps. -/
structure Attribute.Agrees (a a' : Attribute) : Prop where
  params : a.params.Agrees a'.params
  tags : OrderedMap.Agrees Eq a.tags a'.tags
  others : { a with params := a'.params, tags := a'.tags } = a'

theorem Attribute.respects_ofJson? : Respects Agrees ofJson? := by
  intro j j' h
  refine rel_bind (Json.respects_members? h) fun ms ns hms => ?_
  refine rel_bind (hms.member "name" Json.respects_string?) fun _ _ hname => ?_
  refine rel_bind (hms.member "neutral_type" (Json.respects_named? _ _)) fun _ _ htype => ?_
  refine rel_bind (hms.member "is_key_element" Json.respects_bool?) fun _ _ hkey => ?_
  refine rel_bind (hms.member "is_foreign_key_element" Json.respects_bool?) fun _ _ hfk => ?_
  refine rel_bind (hms.member "params" ParamBag.respects_ofJson?) fun _ _ hparams => ?_
  refine rel_bind (hms.member "tags" Tags.respects_ofJson?) fun _ _ htags => ?_
  refine rel_bind (hms.member? "default_value" Json.respects_string?) fun _ _ hdefault => ?_
  refine rel_bind (hms.member? "db_column" Json.respects_string?) fun _ _ hcolumn => ?_
  refine rel_bind (hms.member? "line" Json.respects_line?) fun _ _ hline => .some ?_
  refine ⟨hparams, htags, ?_⟩
  rw [hname, htype, hkey, hfk, hdefault, hcolumn, hline]

structure Link.Agrees (l l' : Link) : Prop where
  params : l.params.Agrees l'.params
  others : { l with params := l'.params } = l'

theorem Link.respects_ofJson? : Respects Agrees ofJson? := by
  intro j j' h
  refine rel_bind (Json.respects_members? h) fun ms ns hms => ?_
  refine rel_bind (hms.member "field_name" Json.respects_string?) fun _ _ hfield => ?_
  refine rel_bind (hms.member "referenced_entity_name" Json.respects_string?) fun _ _ href => ?_
  refine rel_bind (hms.member "cardinality" (Json.respects_named? _ _)) fun _ _ hcard => ?_
  refine rel_bind (hms.member "owning_side" Json.respects_bool?) fun _ _ howning => ?_
  refine rel_bind (hms.member "inverse_side" Json.respects_bool?) fun _ _ hinverse => ?_
  refine rel_bind (hms.member "based_on_foreign_key" Json.respects_bool?) fun _ _ hbased => ?_
  refine rel_bind (hms.member? "foreign_key_name" Json.respects_string?) fun _ _ hkey => ?_
  refine rel_bind (hms.member? "join_entity_name" Json.respects_string?) fun _ _ hjoin => ?_
  refine rel_bind (hms.member "params" ParamBag.respects_ofJson?) fun _ _ hparams => .some ?_
  refine ⟨hparams, ?_⟩
  rw [hfield, href, hcard, howning, hinverse, hbased, hkey, hjoin]

structure Entity.Agrees (e e' : Entity) : Prop where
  attributes : List.Forall₂ Attribute.Agrees e.attributes e'.attributes
  links : List.Forall₂ Link.Agrees e.links e'.links
  params : e.params.Agrees e'.params
  tags : OrderedMap.Agrees Eq e.tags e'.tags
  others : { e with
    attributes := e'.attributes, links := e'.links, params := e'.params, tags := e'.tags } = e'

theorem Entity.respects_ofJson? : Respects Agrees ofJson? := by
  intro j j' h
  refine rel_bind (Json.respects_members? h) fun ms ns hms => ?_
  refine rel_bind (hms.member "name" Json.respects_string?) fun _ _ hname => ?_
  refine rel_bind (hms.member "attributes" (Json.respects_list? Attribute.respects_ofJson?))
    fun _ _ hattributes => ?_
  refine rel_bind (hms.member "foreign_keys" (Json.respects_list?_eq ForeignKey.respects_ofJson?))
    fun _ _ hkeys => ?_
  refine rel_bind (hms.member "links" (Json.respects_list? Link.respects_ofJson?))
    fun _ _ hlinks => ?_
  refine rel_bind (hms.member "params" ParamBag.respects_ofJson?) fun _ _ hparams => ?_
  refine rel_bind (hms.member "tags" Tags.respects_ofJson?) fun _ _ htags => ?_
  refine rel_bind (hms.member? "db_table" Json.respects_string?) fun _ _ htable => .some ?_
  refine ⟨hattributes, hlinks, hparams, htags, ?_⟩
  rw [hname, hkeys, htable]

def Model.Agrees (m m' : Model) : Prop := m.entities.Agrees Entity.Agrees m'.entities

/-- Reading a model does not depend on the order of members. -/
theorem Model.respects_ofJson? : Respects Agrees ofJson? := by
  intro j j' h
  refine rel_bind (Json.respects_members? h) fun ms ns hms => ?_
  refine rel_bind (hms.member "entities" (OrderedMap.respects_ofJson? Entity.respects_ofJson?))
    fun _ _ hentities => .some hentities

theorem OrderedMap.sameValue_toJson {β : Type} {write : β → Json} {m : OrderedMap String β}
    (hwrite : ∀ value ∈ m.values, (write value).SameValue (write value)) :
    (m.toJson write).SameValue (m.toJson write) := by
  obtain ⟨entries, hkeys⟩ := m
  simp only [toJson, Json.sameValue_self_object, List.map_map, Function.comp_def]
  refine ⟨hkeys, fun e he => ?_⟩
  obtain ⟨entry, hentry, rfl⟩ := List.mem_map.1 he
  exact hwrite entry.2 (List.mem_map_of_mem hentry)

namespace Json

theorem sameValue_ofList {α : Type} (write : α → Json) {xs : List α}
    (hwrite : ∀ a ∈ xs, (write a).SameValue (write a)) :
    (ofList write xs).SameValue (ofList write xs) := by
  simpa [ofList] using hwrite

@[simp] theorem sameValue_self_string (value : String) : (string value).SameValue (string value) :=
  .string value

@[simp] theorem sameValue_self_bool (value : Bool) : (bool value).SameValue (bool value) :=
  .bool value

@[simp] theorem sameValue_ofString? (value? : Option String) :
    (ofString? value?).SameValue (ofString? value?) := by
  cases value? with
  | none => exact .null
  | some value => exact .string value

@[simp] theorem sameValue_ofNat? (n? : Option Nat) :
    (ofOption ofNat n?).SameValue (ofOption ofNat n?) := by
  cases n? with
  | none => exact .null
  | some n => exact .integer n

end Json

@[simp] theorem ParamBag.sameValue_toJson (bag : ParamBag) : bag.toJson.SameValue bag.toJson := by
  refine OrderedMap.sameValue_toJson fun space _ => OrderedMap.sameValue_toJson fun value _ => ?_
  cases value with
  | flag value => simp [ParamValue.toJson]
  | text value => simp [ParamValue.toJson]
  | integer value => simpa [ParamValue.toJson] using .integer _
  | list values => simpa [ParamValue.toJson] using Json.sameValue_ofList _ fun _ _ => .string _

@[simp] theorem Tags.sameValue_toJson (tags : Tags) : (toJson tags).SameValue (toJson tags) :=
  OrderedMap.sameValue_toJson fun value? _ => Json.sameValue_ofString? value?

theorem Attribute.sameValue_toJson (a : Attribute) : a.toJson.SameValue a.toJson := by
  simp [toJson, NeutralType.toJson]

theorem AnnotationUse.sameValue_toJson (use : AnnotationUse) :
    use.toJson.SameValue use.toJson := by
  have harguments : use.arguments.toJson.SameValue use.arguments.toJson := by
    cases use.arguments with
    | none => exact .string _
    | single value => simp [Arguments.toJson]
    | list values =>
        simpa [Arguments.toJson] using Json.sameValue_ofList _ fun _ _ => .string _
  simp [toJson, AnnotationKind.toJson, harguments]

theorem ForeignKey.sameValue_toJson (fk : ForeignKey) : fk.toJson.SameValue fk.toJson := by
  have hbindings := Json.sameValue_ofList Binding.toJson fun b (_ : b ∈ fk.bindings) => by
    simp [Binding.toJson]
  have huses := Json.sameValue_ofList AnnotationUse.toJson
    fun use (_ : use ∈ fk.linkAnnotations) => use.sameValue_toJson
  simp [toJson, hbindings, huses]

theorem Link.sameValue_toJson (l : Link) : l.toJson.SameValue l.toJson := by
  simp [toJson, Cardinality.toJson]

theorem Entity.sameValue_toJson (e : Entity) : e.toJson.SameValue e.toJson := by
  have hattributes := Json.sameValue_ofList Attribute.toJson
    fun a (_ : a ∈ e.attributes) => a.sameValue_toJson
  have hkeys := Json.sameValue_ofList ForeignKey.toJson
    fun fk (_ : fk ∈ e.foreignKeys) => fk.sameValue_toJson
  have hlinks := Json.sameValue_ofList Link.toJson fun l (_ : l ∈ e.links) => l.sameValue_toJson
  simp [toJson, hattributes, hkeys, hlinks]

namespace Model

theorem sameValue_toJson {m : Model} {members : List (String × Json)}
    (hperm : (m.entities.entries.map fun e => (e.1, e.2.toJson)).Perm members) :
    m.toJson.SameValue (.object [("entities", .object members)]) := by
  have hentities : (m.entities.toJson Entity.toJson).SameValue (.object members) := by
    refine .of_perm ?_ hperm fun e he => ?_
    · simpa [Function.comp_def] using m.entities.nodup_keys
    · obtain ⟨entry, -, rfl⟩ := List.mem_map.1 he
      exact entry.2.sameValue_toJson
  refine .object (by simp) (.refl _) fun key => ?_
  by_cases hkey : key = "entities"
  · subst hkey
    exact .some hentities
  · have hb : (key == "entities") = false := by simpa using hkey
    simp [List.lookup_cons, hb]

/-- A written model is read back, whatever the order of members in which it was written. Its
maps then list their entries in that order. -/
theorem reads_back {m : Model} (hlines : m.HasWordLines) :
    ofJson? m.toJson = some m ∧
      ∀ j, m.toJson.SameValue j → ∃ m', ofJson? j = some m' ∧ m.Agrees m' := by
  have hread := ofJson?_toJson hlines
  refine ⟨hread, fun j hj => ?_⟩
  have hrel := respects_ofJson? hj
  rw [hread] at hrel
  generalize ofJson? j = m'? at hrel ⊢
  cases hrel with
  | some hagrees => exact ⟨_, rfl, hagrees⟩

def bookshop : Model where
  entities := .ofList [
    ("Author", { Entity.ofName "Author" with
      attributes := [{ Attribute.ofType "id" .long with
        isKey := true
        params := (ParamBag.empty.setFlag "Id").set "Min" "value" (.integer Int64.minValue)
        line? := some 2 }]
      links := [
        { Link.ofCardinality "listOfBook" "Book" .oneToMany with
          isInverse := true, basedOnForeignKey := true, foreignKey? := some "FK_Book_Author" },
        { Link.ofCardinality "listOfAward" "Award" .manyToMany with
          isOwning := true, joinEntity? := some "AuthorAward" }] }),
    ("Book", { Entity.ofName "Book" with
      attributes := [{ Attribute.ofType "author" .long with
        isForeignKey := true
        tags := .ofList [("Column", some "author, id"), ("Hidden", none)]
        default? := some "0"
        column? := some "AUTHOR_ID" }]
      foreignKeys := [⟨"FK_Book_Author", "Book", "Author",
        [⟨"author", none⟩, ⟨"author2", some "id"⟩],
        [⟨.cascade, .list ["MERGE", "REMOVE"], some 3⟩, ⟨.fetch, .single "LAZY", none⟩,
          ⟨.jsonIgnore, .none, some 3⟩]⟩]
      links := [{ Link.ofCardinality "author3" "Author" .manyToOne with
        params := (ParamBag.empty.set "Cascade" "cascade" (.list ["MERGE", "REMOVE"])).set
          "Fetch" "fetch" (.text "LAZY") }]
      table? := some "BOOK" })]

theorem bookshop_reads_back :
    bookshop.HasWordLines ∧ ofJson? bookshop.toJson = some bookshop ∧
      ∃ m', ofJson? (.object [("entities", .object
        (bookshop.entities.entries.map fun e => (e.1, e.2.toJson)).reverse)]) = some m' ∧
          bookshop.Agrees m' := by
  have hlines : bookshop.HasWordLines := by decide
  obtain ⟨hread, hsame⟩ := reads_back hlines
  exact ⟨hlines, hread, hsame _ (sameValue_toJson (List.reverse_perm _).symm)⟩

end Model

end EntityModel
