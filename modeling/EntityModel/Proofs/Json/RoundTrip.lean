import Mathlib.Data.List.Induction
import EntityModel.Json.Model

/-!
# Reading back the JSON form of a model

Every part of a model is written so that its reader gives the part back, in the order in which
it lists its entries. Lines are the one exception: they are numbers without a bound in a model,
but the reader takes none that does not fit into 64 bits.
-/

namespace EntityModel

open Json (member member?)

namespace OrderedMap

variable {α β : Type} [DecidableEq α]

theorem ofList_append_singleton (entries : List (α × β)) (key : α) (value : β) :
    ofList (entries ++ [(key, value)]) = (ofList entries).insert key value := by
  rw [ofList, List.foldl_append]
  rfl

theorem entries_insert_of_notMem {m : OrderedMap α β} {key : α} (hkey : key ∉ m.keys)
    (value : β) : (m.insert key value).entries = m.entries ++ [(key, value)] := by
  have hnew : ¬ m.contains key = true := fun h => hkey (contains_iff.1 h)
  rw [insert, dif_neg hnew]

theorem entries_ofList {entries : List (α × β)} (hkeys : (entries.map Prod.fst).Nodup) :
    (ofList entries).entries = entries := by
  induction entries using List.reverseRecOn with
  | nil => rfl
  | append_singleton entries e ih =>
      rw [List.map_append, List.nodup_append] at hkeys
      have hentries := ih hkeys.1
      have hnew : e.1 ∉ (ofList entries).keys := by
        intro hmem
        rw [keys, hentries] at hmem
        exact hkeys.2.2 e.1 hmem e.1 (by simp) rfl
      rw [ofList_append_singleton, entries_insert_of_notMem hnew, hentries]

theorem ofJson?_toJson {read : Json → Option β} {write : β → Json} {m : OrderedMap String β}
    (h : ∀ value ∈ m.values, read (write value) = some value) :
    ofJson? read (m.toJson write) = some m := by
  obtain ⟨entries, hkeys⟩ := m
  have hread : (entries.map fun e => (e.1, write e.2)).mapM
      (fun e => (read e.2).bind fun value => some (e.1, value)) = some entries := by
    refine Json.mapM_map_of_forall fun e he => ?_
    rw [h e.2 (List.mem_map_of_mem he), Option.bind_some]
  have heq : ofList entries = ⟨entries, hkeys⟩ := by
    have hentries := entries_ofList hkeys
    generalize ofList entries = m at hentries
    cases m
    cases hentries
    rfl
  simp only [ofJson?, toJson, Json.members?, Option.bind_eq_bind, Option.bind_some,
    Option.pure_def]
  rw [hread, Option.bind_some, heq]

end OrderedMap

namespace Json

section Members

variable {α : Type} (read : Json → Option α) (key : String) (j : Json)
  (members : List (String × Json)) (wanted : String)

theorem member_cons : member ((key, j) :: members) wanted read =
    if wanted = key then read j else member members wanted read := by
  by_cases h : wanted = key
  · simp [member, h]
  · simp [member, List.lookup_cons, h, beq_eq_false_iff_ne.2 h]

theorem member?_cons : member? ((key, j) :: members) wanted read =
    if wanted = key then nullable? read j else member? members wanted read := by
  by_cases h : wanted = key
  · simp [member?, h]
  · simp [member?, List.lookup_cons, h, beq_eq_false_iff_ne.2 h]

end Members

theorem named?_string {α : Type} [DecidableEq α] {all : List α} {name : α → String}
    (hname : name.Injective) {a : α} (ha : a ∈ all) :
    named? all name (.string (name a)) = some a := by
  rw [named?, case?, Option.bind_some, List.find?_eq_some_iff_append]
  obtain ⟨front, back, rfl, hfront⟩ := List.eq_append_cons_of_mem ha
  refine ⟨by simp, front, back, rfl, fun b hb => ?_⟩
  have hne : name b ≠ name a := fun heq => hfront (hname heq ▸ hb)
  simpa using hne

theorem list?_strings (values : List String) :
    list? string? (.ofList .string values) = some values :=
  list?_ofList fun _ _ => rfl

theorem nullable?_ofString? (value? : Option String) :
    nullable? string? (ofString? value?) = some value? :=
  nullable?_ofOption nofun fun _ _ => rfl

end Json

theorem ParamValue.ofJson?_toJson (value : ParamValue) : ofJson? value.toJson = some value := by
  cases value with
  | flag value => rfl
  | text value => rfl
  | integer value =>
      have hread : (Json.integer value.toInt).integerIn? Int64.minValue.toInt
          Int64.maxValue.toInt = some value.toInt :=
        if_pos ⟨value.minValue_le_toInt, value.toInt_le⟩
      simp only [ofJson?, toJson, Json.taggedCase?, Option.bind_eq_bind, Option.bind_some, hread,
        Int64.ofInt_toInt, Option.pure_def]
  | list values => simp [ofJson?, toJson, Json.taggedCase?, Json.list?_strings]

theorem ParamBag.ofJson?_toJson (bag : ParamBag) : ofJson? bag.toJson = some bag := by
  have hspaces : OrderedMap.ofJson? (OrderedMap.ofJson? ParamValue.ofJson?)
      (bag.namespaces.toJson (·.toJson ParamValue.toJson)) = some bag.namespaces :=
    OrderedMap.ofJson?_toJson fun space _ =>
      OrderedMap.ofJson?_toJson fun value _ => value.ofJson?_toJson
  rw [ofJson?, toJson, hspaces]
  rfl

theorem Tags.ofJson?_toJson (tags : Tags) : ofJson? (toJson tags) = some tags :=
  OrderedMap.ofJson?_toJson fun value? _ => Json.nullable?_ofString? value?

theorem NeutralType.ofJson?_toJson (t : NeutralType) : ofJson? t.toJson = some t :=
  Json.named?_string (by intro a b; cases a <;> cases b <;> decide) (by cases t <;> decide)

theorem AnnotationKind.ofJson?_toJson (kind : AnnotationKind) : ofJson? kind.toJson = some kind :=
  Json.named?_string (by intro a b; cases a <;> cases b <;> decide) (by cases kind <;> decide)

theorem Cardinality.ofJson?_toJson (c : Cardinality) : ofJson? c.toJson = some c :=
  Json.named?_string (by intro a b; cases a <;> cases b <;> decide) (by cases c <;> decide)

theorem Arguments.ofJson?_toJson (a : Arguments) : ofJson? a.toJson = some a := by
  cases a with
  | none => rfl
  | single value => rfl
  | list values =>
      have hread := Json.list?_strings values
      simp only [ofJson?, toJson, Json.ofList, Json.case?, Json.taggedCase?] at hread ⊢
      rw [hread]
      rfl

theorem Binding.ofJson?_toJson (b : Binding) : ofJson? b.toJson = some b := by
  have hreferenced := Json.nullable?_ofString? b.referenced?
  simp only [ofJson?, toJson, Json.members?, Option.bind_eq_bind, Option.bind_some]
  simp [Json.member_cons, Json.member?_cons, Json.string?, hreferenced]

theorem Link.ofJson?_toJson (l : Link) : ofJson? l.toJson = some l := by
  simp only [ofJson?, toJson, Json.members?, Option.bind_eq_bind, Option.bind_some]
  simp [Json.member_cons, Json.member?_cons, Json.string?, Json.bool?, Json.nullable?_ofString?,
    Cardinality.ofJson?_toJson, ParamBag.ofJson?_toJson]

def HasWordSize (line? : Option Nat) : Prop := ∀ n ∈ line?, n < UInt64.size

instance (line? : Option Nat) : Decidable (HasWordSize line?) :=
  inferInstanceAs (Decidable (∀ n ∈ line?, n < UInt64.size))

namespace Json

theorem line?_ofNat {n : Nat} (hn : n < UInt64.size) : line? (ofNat n) = some n := by
  have hbound : (0 : Int) ≤ n ∧ (n : Int) ≤ ((UInt64.size - 1 : Nat) : Int) := by
    omega
  rw [line?, naturalUpTo?, ofNat, integerIn?, if_pos hbound]
  rfl

theorem nullable?_lines {line? : Option Nat} (hline : HasWordSize line?) :
    nullable? Json.line? (ofOption ofNat line?) = some line? :=
  nullable?_ofOption nofun fun n hn => line?_ofNat (hline n hn)

end Json

theorem Attribute.ofJson?_toJson {a : Attribute} (hline : HasWordSize a.line?) :
    ofJson? a.toJson = some a := by
  simp only [ofJson?, toJson, Json.members?, Option.bind_eq_bind, Option.bind_some]
  simp [Json.member_cons, Json.member?_cons, Json.string?, Json.bool?, Json.nullable?_ofString?,
    NeutralType.ofJson?_toJson, ParamBag.ofJson?_toJson, Tags.ofJson?_toJson,
    Json.nullable?_lines hline]

theorem AnnotationUse.ofJson?_toJson {use : AnnotationUse} (hline : HasWordSize use.line?) :
    ofJson? use.toJson = some use := by
  simp only [ofJson?, toJson, Json.members?, Option.bind_eq_bind, Option.bind_some]
  simp [Json.member_cons, Json.member?_cons, AnnotationKind.ofJson?_toJson,
    Arguments.ofJson?_toJson, Json.nullable?_lines hline]

theorem ForeignKey.ofJson?_toJson {fk : ForeignKey}
    (hlines : ∀ use ∈ fk.linkAnnotations, HasWordSize use.line?) :
    ofJson? fk.toJson = some fk := by
  have hbindings : Json.list? Binding.ofJson? (.ofList Binding.toJson fk.bindings) =
      some fk.bindings := Json.list?_ofList fun b _ => b.ofJson?_toJson
  have huses : Json.list? AnnotationUse.ofJson? (.ofList AnnotationUse.toJson fk.linkAnnotations) =
      some fk.linkAnnotations :=
    Json.list?_ofList fun use huse => AnnotationUse.ofJson?_toJson (hlines use huse)
  simp only [ofJson?, toJson, Json.members?, Option.bind_eq_bind, Option.bind_some]
  simp [Json.member_cons, Json.string?, hbindings, huses]

structure Entity.HasWordLines (e : Entity) : Prop where
  attributes : ∀ a ∈ e.attributes, HasWordSize a.line?
  foreignKeys : ∀ fk ∈ e.foreignKeys, ∀ use ∈ fk.linkAnnotations, HasWordSize use.line?

instance (e : Entity) : Decidable e.HasWordLines :=
  decidable_of_iff ((∀ a ∈ e.attributes, HasWordSize a.line?) ∧
      ∀ fk ∈ e.foreignKeys, ∀ use ∈ fk.linkAnnotations, HasWordSize use.line?)
    ⟨fun h => ⟨h.1, h.2⟩, fun h => ⟨h.1, h.2⟩⟩

theorem Entity.ofJson?_toJson {e : Entity} (hlines : e.HasWordLines) :
    ofJson? e.toJson = some e := by
  have hattributes : Json.list? Attribute.ofJson? (.ofList Attribute.toJson e.attributes) =
      some e.attributes :=
    Json.list?_ofList fun a ha => Attribute.ofJson?_toJson (hlines.attributes a ha)
  have hkeys : Json.list? ForeignKey.ofJson? (.ofList ForeignKey.toJson e.foreignKeys) =
      some e.foreignKeys :=
    Json.list?_ofList fun fk hfk => ForeignKey.ofJson?_toJson (hlines.foreignKeys fk hfk)
  have hlinks : Json.list? Link.ofJson? (.ofList Link.toJson e.links) = some e.links :=
    Json.list?_ofList fun l _ => l.ofJson?_toJson
  simp only [ofJson?, toJson, Json.members?, Option.bind_eq_bind, Option.bind_some]
  simp [Json.member_cons, Json.member?_cons, Json.string?, Json.nullable?_ofString?, hattributes,
    hkeys, hlinks, ParamBag.ofJson?_toJson, Tags.ofJson?_toJson]

def Model.HasWordLines (m : Model) : Prop := ∀ e ∈ m.toList, e.HasWordLines

instance (m : Model) : Decidable m.HasWordLines := inferInstanceAs (Decidable (∀ _ ∈ _, _))

/-- Reading a written model gives the model, with its entries in the order in which it lists
them. -/
theorem Model.ofJson?_toJson {m : Model} (hlines : m.HasWordLines) :
    ofJson? m.toJson = some m := by
  have hentities : OrderedMap.ofJson? Entity.ofJson? (m.entities.toJson Entity.toJson) =
      some m.entities := OrderedMap.ofJson?_toJson fun e he => Entity.ofJson?_toJson (hlines e he)
  simp [ofJson?, toJson, Json.members?, member, hentities]

end EntityModel
