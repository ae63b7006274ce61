import EntityModel.Proofs.Annotations.Effects
import EntityModel.Proofs.Annotations.Reading
import EntityModel.Proofs.Annotations.Scopes

/-!
# Stored values

Checking the values of an annotation and storing them are two passes over the same list. Whatever
passes the check is stored: in a bag without the namespace of its kind, an annotation leaves exactly
its values there, each under its key.
-/

namespace EntityModel

open ParamBag (presenceKey)

inductive AnnotationTarget where
  | attribute (a : Attribute)
  | link (l : Link)
  | entity (e : Entity)

namespace AnnotationTarget

def scope : AnnotationTarget → Scope
  | .attribute _ => .attribute
  | .link _ => .link
  | .entity _ => .entity

def params : AnnotationTarget → ParamBag
  | .attribute a => a.params
  | .link l => l.params
  | .entity e => e.params

def apply (use : AnnotationUse) : AnnotationTarget → AnnotationTarget
  | .attribute a => .attribute (use.kind.applyToAttribute use.arguments a)
  | .link l => .link (use.kind.applyToLink use.arguments l)
  | .entity e => .entity (use.kind.applyToEntity use.arguments e)

theorem params_apply (use : AnnotationUse) (target : AnnotationTarget) :
    (target.apply use).params =
      use.kind.store (use.kind.entriesOn target.scope use.arguments) target.params := by
  cases target <;> rfl

end AnnotationTarget

namespace ParamBag

/-- The namespace of the owner is there, and these are its entries besides the mark of presence. -/
def HasEntries (bag : ParamBag) (owner : String) (entries : List (String × ParamValue)) : Prop :=
  ∃ space, bag.namespaces.find? owner = some space ∧
    space.entries.filter (fun e => e.1 ≠ presenceKey) = entries

theorem storedIn_none {entries : List (String × ParamValue)} (hne : entries ≠ [])
    (hkeys : (entries.map Prod.fst).Nodup) :
    ∃ space, storedIn entries none = some space ∧ space.entries = entries := by
  have hfold (rest : List (String × ParamValue)) (space : OrderedMap String ParamValue) :
      storedIn rest (some space) = some (rest.foldl (fun m e => m.insert e.1 e.2) space) := by
    induction rest generalizing space with
    | nil => rfl
    | cons entry rest ih => exact ih (space.insert entry.1 entry.2)
  cases entries with
  | nil => exact absurd rfl hne
  | cons entry rest =>
      refine ⟨OrderedMap.ofList (entry :: rest), ?_, OrderedMap.entries_ofList hkeys⟩
      exact hfold rest (OrderedMap.empty.insert entry.1 entry.2)

theorem hasEntries_store {kind : AnnotationKind} {bag : ParamBag}
    {entries : List (String × ParamValue)} (hbag : bag.has kind.name = false) (hne : entries ≠ [])
    (hkeys : (entries.map Prod.fst).Nodup) :
    (kind.store entries bag).HasEntries kind.name
      (entries.filter fun e => e.1 ≠ presenceKey) := by
  have hnone : bag.namespaces.find? kind.name = none := by
    simpa [has, OrderedMap.contains] using hbag
  obtain ⟨space, hspace, hentries⟩ := storedIn_none hne hkeys
  refine ⟨space, ?_, by rw [hentries]⟩
  rw [find?_store, if_pos rfl, hnone, hspace]

end ParamBag

namespace AnnotationKind

/-- How the values of an annotation are kept: one entry for each value, except that options are kept
together. Options and strategies are in upper case, and an allocation size is kept as the number
that its text denotes. -/
inductive Keeps : AnnotationKind → List String → List (String × ParamValue) → Prop
  | mark {kind : AnnotationKind} (h : kind.shape = .none) : Keeps kind [] []
  | value {kind : AnnotationKind} {value : String} (h : kind ∈ [min, max, defaultValue, dbTable]) :
      Keeps kind [value] [("value", .text value)]
  | option {value : String} : Keeps fetch [value] [("value", .text (Text.asciiUpper value))]
  | options {values : List String} (h : values ≠ []) :
      Keeps cascade values [("options", .list (values.map Text.asciiUpper))]
  | sizes {low high : String} :
      Keeps minMaxSize [low, high] [("min", .text low), ("max", .text high)]
  | sizesWithMessage {low high message : String} :
      Keeps minMaxSize [low, high, message]
        [("min", .text low), ("max", .text high), ("message", .text message)]
  | strategy {strategy : String} (h : Text.asciiUpper strategy ∈ ["AUTO", "IDENTITY"]) :
      Keeps generatedValue [strategy] [("strategy", .text (Text.asciiUpper strategy))]
  | sequence {strategy generator target : String} (h : Text.asciiUpper strategy = "SEQUENCE") :
      Keeps generatedValue [strategy, generator, target]
        [("strategy", .text "SEQUENCE"), ("generator", .text generator),
          ("sequenceName", .text target)]
  | allocation {strategy generator target size : String} {n : Nat} {stored : Int64}
      (h : Text.asciiUpper strategy = "SEQUENCE") (hsize : Text.natural? size.toList = some n)
      (hstored : stored.toInt = n) :
      Keeps generatedValue [strategy, generator, target, size]
        [("strategy", .text "SEQUENCE"), ("generator", .text generator),
          ("sequenceName", .text target), ("allocationSize", .integer stored)]
  | table {strategy generator target : String} (h : Text.asciiUpper strategy = "TABLE") :
      Keeps generatedValue [strategy, generator, target]
        [("strategy", .text "TABLE"), ("generator", .text generator), ("tableName", .text target)]

structure Leaves (stored entries : List (String × ParamValue)) : Prop where
  ne_nil : stored ≠ []
  nodup_keys : (stored.map Prod.fst).Nodup
  kept : stored.filter (fun e => e.1 ≠ presenceKey) = entries

variable {kind : AnnotationKind} {scope : Scope} {arguments : Arguments} {values : List String}

theorem arguments_of_shape_none (hshape : kind.shape = .none)
    (h : Arguments.ofValues kind values = .ok arguments) : values = [] ∧ arguments = .none := by
  unfold Arguments.ofValues at h
  split at h <;> simp_all

theorem arguments_of_shape_single (hshape : kind.shape = .single)
    (h : Arguments.ofValues kind values = .ok arguments) :
    ∃ value, values = [value] ∧ arguments = .single value := by
  unfold Arguments.ofValues at h
  split at h <;> simp_all

theorem arguments_of_shape_list (hshape : kind.shape = .list)
    (h : Arguments.ofValues kind values = .ok arguments) :
    values ≠ [] ∧ arguments = .list values := by
  unfold Arguments.ofValues at h
  split at h <;> simp_all

theorem eq_fetch_or_mem (hshape : kind.shape = .single) :
    kind = fetch ∨ kind ∈ [min, max, defaultValue, dbTable] := by
  revert hshape
  cases kind <;> decide

theorem leaves_of_shape_none (hshape : kind.shape = .none) (hscope : kind.allows scope = true) :
    Leaves (kind.entriesOn scope .none) [] := by
  have hentries : kind.entriesOn scope .none = [present] := by
    cases kind <;> cases hshape <;> cases scope <;> first | rfl | cases hscope
  rw [hentries]
  exact ⟨by simp, by simp, by simp [present]⟩

theorem leaves_value (value : ParamValue) : Leaves [("value", value)] [("value", value)] :=
  ⟨by simp, by simp, by simp [presenceKey]⟩

theorem leaves_of_single {value : String} (hkind : kind ∈ [min, max, defaultValue, dbTable])
    (hscope : kind.allows scope = true) :
    Leaves (kind.entriesOn scope (.single value)) [("value", .text value)] := by
  have hentries : kind.entriesOn scope (.single value) = [("value", .text value)] := by
    simp only [List.mem_cons, List.not_mem_nil, or_false] at hkind
    rcases hkind with rfl | rfl | rfl | rfl <;> cases scope <;> first | rfl | cases hscope
  rw [hentries]
  exact leaves_value (.text value)

theorem leaves_present_cons {entries : List (String × ParamValue)}
    (hkeys : (entries.map Prod.fst).Nodup) (hpresence : presenceKey ∉ entries.map Prod.fst) :
    Leaves (present :: entries) entries := by
  refine ⟨by simp, List.nodup_cons.2 ⟨hpresence, hkeys⟩, ?_⟩
  have hpresent : decide (present.1 ≠ presenceKey) = false := by decide
  rw [List.filter_cons_of_neg (by simp [hpresent]), List.filter_eq_self]
  intro e he
  have hne : e.1 ≠ presenceKey := by
    intro heq
    rw [← heq] at hpresence
    exact hpresence (List.mem_map_of_mem he)
  simpa using hne

theorem exists_keeps_sizes (h : checkSizes values = .ok ()) :
    ∃ entries, Keeps minMaxSize values entries ∧
      Leaves (minMaxSize.entriesOn .attribute (.list values)) entries := by
  unfold checkSizes at h
  split at h
  · rename_i low high rest
    split at h
    · cases h
    · rename_i hlength
      match rest, hlength with
      | [], _ =>
          have hentries : minMaxSize.entriesOn .attribute (.list [low, high]) =
              present :: [("min", .text low), ("max", .text high)] := rfl
          refine ⟨_, .sizes, ?_⟩
          rw [hentries]
          exact leaves_present_cons (by simp) (by simp [presenceKey])
      | [message], _ =>
          have hentries : minMaxSize.entriesOn .attribute (.list [low, high, message]) =
              present :: [("min", .text low), ("max", .text high), ("message", .text message)] :=
            rfl
          refine ⟨_, .sizesWithMessage, ?_⟩
          rw [hentries]
          exact leaves_present_cons (by simp) (by simp [presenceKey])
      | _ :: _ :: _, hlength => simp at hlength
  · cases h

theorem leaves_options {values : List String} :
    Leaves (cascade.entriesOn .link (.list values))
      [("options", .list (values.map Text.asciiUpper))] :=
  ⟨by simp [entriesOn, linkEntries], by simp [entriesOn, linkEntries],
    by simp [entriesOn, linkEntries, Arguments.values, presenceKey]⟩

theorem integer?_of_natural? {cs : List Char} {n : Nat} (h : Text.natural? cs = some n) :
    Text.integer? cs = some (n : Int) := by
  unfold Text.integer?
  split
  · -- no digit is a minus sign
    simp [Text.natural?, Text.digits?] at h
  · rw [h]
    rfl

/-- A size that has been checked as a natural number below the bound of 32 bits is stored as that
number: read as an integer it is the same, and it fits into 64 bits. -/
theorem exists_stored_of_naturalBelow? {size : String}
    (h : (naturalBelow? UInt32.size size).isSome = true) :
    ∃ n stored, Text.natural? size.toList = some n ∧ integer64? size = some stored ∧
      stored.toInt = (n : Int) := by
  obtain ⟨n, hn⟩ := Option.isSome_iff_exists.1 h
  rw [naturalBelow?, Option.filter_eq_some_iff] at hn
  obtain ⟨hnatural, hbound⟩ := hn
  have hlow : (-2 ^ 63 : Int) ≤ n := by omega
  have hhigh : (n : Int) < 2 ^ 63 := by
    have hsize : n < UInt32.size := by simpa using hbound
    simp only [UInt32.size] at hsize
    omega
  refine ⟨n, Int64.ofInt n, hnatural, ?_, Int64.toInt_ofInt_of_le hlow hhigh⟩
  have hinteger := integer?_of_natural? hnatural
  have hmin : Int64.minValue.toInt = -2 ^ 63 := by decide
  have hmax : Int64.maxValue.toInt = 2 ^ 63 - 1 := by decide
  rw [integer64?, hinteger, Option.bind_some, if_pos]
  rw [hmin, hmax]
  omega

theorem exists_keeps_sequence {strategy : String} (hstrategy : Text.asciiUpper strategy = "SEQUENCE")
    (h : checkSequence values = .ok ()) :
    ∃ entries, Keeps generatedValue (strategy :: values) entries ∧
      Leaves (generatedValue.entriesOn .attribute (.list (strategy :: values))) entries := by
  unfold checkSequence at h
  split at h
  · rename_i generator target
    have hentries : generatedValue.entriesOn .attribute (.list [strategy, generator, target]) =
        present :: [("strategy", .text "SEQUENCE"), ("generator", .text generator),
          ("sequenceName", .text target)] := by
      simp [entriesOn, attributeEntries, generationEntries, Arguments.values, textEntry, hstrategy]
    refine ⟨_, .sequence hstrategy, ?_⟩
    rw [hentries]
    exact leaves_present_cons (by simp) (by simp [presenceKey])
  · rename_i generator target size
    split at h
    · rename_i hsize
      obtain ⟨n, stored, hnatural, hinteger, hstored⟩ := exists_stored_of_naturalBelow? hsize
      have hentries :
          generatedValue.entriesOn .attribute (.list [strategy, generator, target, size]) =
            present :: [("strategy", .text "SEQUENCE"), ("generator", .text generator),
              ("sequenceName", .text target), ("allocationSize", .integer stored)] := by
        simp [entriesOn, attributeEntries, generationEntries, Arguments.values, textEntry,
          hstrategy, hinteger]
      refine ⟨_, .allocation hstrategy hnatural hstored, ?_⟩
      rw [hentries]
      exact leaves_present_cons (by simp) (by simp [presenceKey])
    · cases h
  · cases h

theorem exists_keeps_strategy {strategy : String}
    (hstrategy : Text.asciiUpper strategy ∈ ["AUTO", "IDENTITY"]) :
    ∃ entries, Keeps generatedValue [strategy] entries ∧
      Leaves (generatedValue.entriesOn .attribute (.list [strategy])) entries := by
  have hentries : generatedValue.entriesOn .attribute (.list [strategy]) =
      present :: [("strategy", .text (Text.asciiUpper strategy))] := rfl
  refine ⟨_, .strategy hstrategy, ?_⟩
  rw [hentries]
  exact leaves_present_cons (by simp) (by simp [presenceKey])

theorem exists_keeps_table {strategy generator target : String}
    (hstrategy : Text.asciiUpper strategy = "TABLE") :
    ∃ entries, Keeps generatedValue [strategy, generator, target] entries ∧
      Leaves (generatedValue.entriesOn .attribute (.list [strategy, generator, target]))
        entries := by
  have hentries : generatedValue.entriesOn .attribute (.list [strategy, generator, target]) =
      present :: [("strategy", .text "TABLE"), ("generator", .text generator),
        ("tableName", .text target)] := by
    simp [entriesOn, attributeEntries, generationEntries, Arguments.values, textEntry, hstrategy]
  refine ⟨_, .table hstrategy, ?_⟩
  rw [hentries]
  exact leaves_present_cons (by simp) (by simp [presenceKey])

theorem exists_keeps_generation (h : checkGeneratedValue values = .ok ()) :
    ∃ entries, Keeps generatedValue values entries ∧
      Leaves (generatedValue.entriesOn .attribute (.list values)) entries := by
  unfold checkGeneratedValue at h
  split at h
  · cases h
  · rename_i strategy rest
    split at h
    · rename_i hstrategy
      split at h
      · rename_i hrest
        obtain rfl : rest = [] := by simpa using hrest
        exact exists_keeps_strategy (by simp [hstrategy])
      · cases h
    · rename_i hstrategy
      split at h
      · rename_i hrest
        obtain rfl : rest = [] := by simpa using hrest
        exact exists_keeps_strategy (by simp [hstrategy])
      · cases h
    · rename_i hstrategy
      exact exists_keeps_sequence hstrategy h
    · rename_i hstrategy
      split at h
      · rename_i hlength
        obtain ⟨generator, target, rfl⟩ := List.length_eq_two.1 hlength
        exact exists_keeps_table hstrategy
      · cases h
    · cases h

theorem exists_keeps (hkind : kind ≠ foreignKey)
    (harguments : Arguments.ofValues kind values = .ok arguments)
    (hcheck : kind.check arguments = .ok ()) :
    ∃ entries, Keeps kind values entries ∧
      ∀ scope, kind.allows scope = true → Leaves (kind.entriesOn scope arguments) entries := by
  cases hshape : kind.shape with
  | none =>
      obtain ⟨rfl, rfl⟩ := arguments_of_shape_none hshape harguments
      exact ⟨[], .mark hshape, fun scope hscope => leaves_of_shape_none hshape hscope⟩
  | single =>
      obtain ⟨value, rfl, rfl⟩ := arguments_of_shape_single hshape harguments
      rcases eq_fetch_or_mem hshape with hfetch | hsingle
      · subst hfetch
        refine ⟨_, .option, ?_⟩
        intro scope hscope
        obtain rfl : scope = .link := by simpa [allows, scopes] using hscope
        exact leaves_value (.text (Text.asciiUpper value))
      · exact ⟨_, .value hsingle, fun scope hscope => leaves_of_single hsingle hscope⟩
  | list =>
      obtain ⟨hne, rfl⟩ := arguments_of_shape_list hshape harguments
      have honly {entries : List (String × ParamValue)} {scope : Scope}
          (hscopes : kind.scopes = [scope]) (h : Leaves (kind.entriesOn scope (.list values)) entries) :
          ∀ other, kind.allows other = true → Leaves (kind.entriesOn other (.list values)) entries := by
        intro other hother
        obtain rfl : other = scope := by simpa [allows, hscopes] using hother
        exact h
      cases kind with
      | foreignKey => exact absurd rfl hkind
      | minMaxSize =>
          obtain ⟨entries, hkeeps, hleaves⟩ := exists_keeps_sizes hcheck
          exact ⟨entries, hkeeps, honly rfl hleaves⟩
      | generatedValue =>
          obtain ⟨entries, hkeeps, hleaves⟩ := exists_keeps_generation hcheck
          exact ⟨entries, hkeeps, honly rfl hleaves⟩
      | cascade => exact ⟨_, .options hne, honly rfl leaves_options⟩
      | _ => cases hshape

end AnnotationKind

/-- No value is lost between the text of an annotation and the target: the values of the entry that
is read are those of the annotation, and where the kind may stand and has left nothing yet, its
namespace then holds the entries that keep them, and besides those at most the mark of presence. -/
theorem AnnotationUse.hasEntries_apply {text : String} {line? : Option Nat} {use : AnnotationUse}
    (h : ofText text line? = .ok use) (hkind : use.kind ≠ .foreignKey) :
    (∃ e, Entry.ofMarked '@' text.toList = .ok e ∧ e.values = .ok use.arguments.values) ∧
    ∃ entries, AnnotationKind.Keeps use.kind use.arguments.values entries ∧
      ∀ target : AnnotationTarget, use.kind.allows target.scope = true →
        target.params.has use.kind.name = false →
        (target.apply use).params.has use.kind.name = true ∧
          (target.apply use).params.HasEntries use.kind.name entries := by
  obtain ⟨e, hread, hentry, -⟩ := exists_entry h
  obtain ⟨entries, hkeeps, hleaves⟩ :=
    AnnotationKind.exists_keeps hkind hentry.arguments hentry.checked
  refine ⟨⟨e, hread, hentry.values⟩, entries, hkeeps, ?_⟩
  intro target hscope hbag
  have hstored := hleaves target.scope hscope
  rw [AnnotationTarget.params_apply]
  constructor
  · rw [ParamBag.has_store]
    exact .inr ⟨hstored.ne_nil, rfl⟩
  · rw [← hstored.kept]
    exact ParamBag.hasEntries_store hbag hstored.ne_nil hstored.nodup_keys

theorem AnnotationUse.hasEntries_apply_sequence :
    let generation : AnnotationUse :=
      ⟨.generatedValue, .list ["sequence", "gen", "a,b", "+020"], none⟩
    let options : AnnotationUse := ⟨.cascade, .list ["merge", "All"], none⟩
    let table : AnnotationUse := ⟨.dbTable, .single "t", none⟩
    let id := AnnotationTarget.attribute (.ofType "id" .long)
    let link := AnnotationTarget.link (.ofCardinality "f" "E" .manyToOne)
    let entity := AnnotationTarget.entity (.ofName "E")
    ofText "@GeneratedValue(sequence, gen, 'a,b', +020)" none = .ok generation ∧
      (id.apply generation).params.HasEntries "GeneratedValue"
        [("strategy", .text "SEQUENCE"), ("generator", .text "gen"), ("sequenceName", .text "a,b"),
          ("allocationSize", .integer 20)] ∧
    ofText "Cascade(merge, All)" none = .ok options ∧
      (link.apply options).params.HasEntries "Cascade" [("options", .list ["MERGE", "ALL"])] ∧
    ofText "DbTable(t)" none = .ok table ∧
      (entity.apply table).params.HasEntries "DbTable" [("value", .text "t")] := by
  intro generation options table id link entity
  have hgeneration : ofText "@GeneratedValue(sequence, gen, 'a,b', +020)" none = .ok generation := by
    decide +kernel
  have hoptions : ofText "Cascade(merge, All)" none = .ok options := by decide +kernel
  have htable : ofText "DbTable(t)" none = .ok table := by decide +kernel
  refine ⟨hgeneration, ?_, hoptions, ?_, htable, ?_⟩
  · obtain ⟨-, entries, hkeeps, happly⟩ := hasEntries_apply hgeneration (by decide)
    cases hkeeps with
    | allocation hstrategy hsize hstored =>
        rename_i n stored
        have hnatural : Text.natural? "+020".toList = some 20 := by decide
        obtain rfl : n = 20 := Option.some.inj (hsize.symm.trans hnatural)
        obtain rfl : stored = 20 := Int64.toInt_inj.1 hstored
        exact (happly id rfl rfl).2
  · obtain ⟨-, entries, hkeeps, happly⟩ := hasEntries_apply hoptions (by decide)
    cases hkeeps with
    | options hne =>
        have hupper : options.arguments.values.map Text.asciiUpper = ["MERGE", "ALL"] := by
          decide +kernel
        have hlink := (happly link rfl rfl).2
        rwa [hupper] at hlink
  · obtain ⟨-, entries, hkeeps, happly⟩ := hasEntries_apply htable (by decide)
    cases hkeeps with
    | value hsingle => exact (happly entity rfl rfl).2

end EntityModel
