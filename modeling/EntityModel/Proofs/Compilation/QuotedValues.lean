import EntityModel.Compilation
import EntityModel.Proofs.Annotations.Quotation
import EntityModel.Proofs.Annotations.References
import EntityModel.Proofs.Entity.FieldNames
import EntityModel.Proofs.Statement.RoundTrip

/-!
# Quoted values from text to model

What stands between the quotes of a default value or a label reaches the model as it is, whatever
it would mean outside quotes.
-/

namespace EntityModel

/-- A field of strings with a default value and a label. -/
structure QuotedField where
  name : String
  isIdentifier : Text.isIdentifier name.toList = true
  default : QuotedText
  label : QuotedText

namespace QuotedField

def line (f : QuotedField) : List Char :=
  f.name.toList ++ " : string \x7b Default(".toList ++ f.default.chars ++ "), #Label(".toList ++
    f.label.chars ++ ") \x7d ;".toList

def form (f : QuotedField) : StatementForm :=
  ⟨f.name, "string", [f.default.entry "Default", f.label.entry "#Label"]⟩

variable (f : QuotedField)

theorem name_ne_empty : f.name ≠ "" := by
  intro h
  have hname := f.isIdentifier
  rw [h] at hname
  cases hname

theorem isWellFormed_form : f.form.IsWellFormed := by
  have htype : Text.isIdentifier "string".toList = true := by decide +kernel
  refine ⟨.inl ⟨f.isIdentifier, htype⟩, fun text htext => ?_⟩
  simp only [form, List.mem_cons, List.not_mem_nil, or_false] at htext
  rcases htext with rfl | rfl
  · exact Element.isWellFormed_entry f.default (by decide)
  · exact Element.isWellFormed_entry f.label (by decide)

theorem written_form : f.form.written .plain = f.line := by
  have hdefault : Element.Spelling.plain.write (f.default.entry "Default") =
      (f.default.entry "Default").toList := Element.write_plain_entry _ (by decide) (by decide)
  have hlabel : Element.Spelling.plain.write (f.label.entry "#Label") =
      (f.label.entry "#Label").toList := Element.write_plain_entry _ (by decide) (by decide)
  simp [form, line, StatementForm.written, StatementForm.writtenDeclaration,
    StatementForm.writtenBlock, Element.writtenAll, hdefault, hlabel, QuotedText.toList_entry,
    f.name_ne_empty]

theorem toStatement_form (line : Nat) :
    f.form.toStatement line = ⟨f.name, "string", [⟨f.default.entry "Default", line⟩],
      [⟨f.label.entry "#Label", line⟩], line⟩ := by
  have hdefault : Element.isTag (f.default.entry "Default") = false := by
    simp [Element.isTag, QuotedText.toList_entry]
  have hlabel : Element.isTag (f.label.entry "#Label") = true := by
    simp [Element.isTag, QuotedText.toList_entry]
  simp [StatementForm.toStatement, form, hdefault, hlabel]

def toAttribute (line : Nat) : Attribute :=
  { Attribute.ofType f.name .string with
    params := ParamBag.empty.set AnnotationKind.defaultValue.name "value" (.text f.default.text)
    tags := OrderedMap.empty.insert "Label" (some f.label.text)
    default? := some f.default.text
    line? := some line }

theorem addStatement_form (s : Assembly) (line : Nat) (hfree : s.entity.hasField f.name = false) :
    s.addStatement (f.form.toStatement line) =
      { s with entity := s.entity.addAttribute (f.toAttribute line) } := by
  have hname : f.name.isEmpty = false := by simpa using f.name_ne_empty
  have htype : NeutralType.ofName? "string" = some .string := by decide +kernel
  have huses : annotationOutcomes [] [⟨f.default.entry "Default", line⟩] =
      [.ok ⟨.defaultValue, .single f.default.text, some line⟩] := by
    simp [annotationOutcomes, AnnotationUse.ofText_quoted]
  have htags : tagOutcomes [] [⟨f.label.entry "#Label", line⟩] =
      [.ok ⟨"Label", some f.label.text, some line⟩] := by
    simp [tagOutcomes, TagUse.ofText_quoted]
  have hread : s.addStatement (f.form.toStatement line) =
      { s.report (some f.name) [] with
        entity := s.entity.addAttribute (f.toAttribute line) } := by
    rw [f.toStatement_form]
    simp only [Assembly.addStatement, Statement.isEntityBlock, hname, Bool.false_and,
      Bool.false_eq_true, if_false, Assembly.addField, htype, hfree, Assembly.addAttribute, huses,
      htags]
    rfl
  rw [hread, Assembly.report, List.map_nil, List.append_nil]

end QuotedField

theorem Assembly.foldl_addStatement_forms (s : Assembly) (n : Nat) {fields : List QuotedField}
    (hfree : ∀ f ∈ fields, f.name ∉ s.entity.fieldNames)
    (hnames : (fields.map QuotedField.name).Nodup) :
    (fields.mapIdx fun i f => f.form.toStatement (i + n)).foldl addStatement s =
      { s with
        entity := { s.entity with
          attributes := s.entity.attributes ++
            fields.mapIdx fun i f => f.toAttribute (i + n) } } := by
  induction fields generalizing s n with
  | nil => simp
  | cons f fields ih =>
      rw [List.forall_mem_cons] at hfree
      rw [List.map_cons, List.nodup_cons] at hnames
      have hfield : s.entity.hasField f.name = false := by
        rw [← Bool.not_eq_true, Entity.hasField_iff]
        exact hfree.1
      have hrest : ∀ g ∈ fields,
          g.name ∉ (s.entity.addAttribute (f.toAttribute n)).fieldNames := by
        intro g hg hmem
        have hne : g.name ≠ f.name := fun h => hnames.1 (h ▸ List.mem_map_of_mem hg)
        refine hfree.2 g hg ?_
        simpa [Entity.fieldNames, Entity.addAttribute, QuotedField.toAttribute, Attribute.ofType,
          hne] using hmem
      have htail := ih { s with entity := s.entity.addAttribute (f.toAttribute n) } (n + 1) hrest
        hnames.2
      rw [List.mapIdx_cons, List.foldl_cons, Nat.zero_add, f.addStatement_form s n hfield,
        List.mapIdx_cons]
      simp only [Nat.add_assoc, Nat.add_comm 1] at htail ⊢
      rw [htail]
      simp [Entity.addAttribute]

theorem Entity.ofStatements_forms (name : String) (n : Nat) {fields : List QuotedField}
    (hnames : (fields.map QuotedField.name).Nodup) :
    ofStatements name (fields.mapIdx fun i f => f.form.toStatement (i + n)) =
      ({ ofName name with attributes := fields.mapIdx fun i f => f.toAttribute (i + n) }, []) := by
  rw [ofStatements, Assembly.foldl_addStatement_forms _ n
    (by simp [Assembly.ofName, ofName, fieldNames]) hnames]
  rfl

namespace Path

variable {name : String}

theorem fileName?_eq_self (hne : name ≠ "") (hslash : '/' ∉ name.toList)
    (hpoint : '.' ∉ name.toList) : fileName? name = some name := by
  have hidle : isIdle name = false := by
    have hpoint' : name ≠ "." := by
      rintro rfl
      exact hpoint (by decide)
    simp [isIdle, hne, hpoint']
  have hup : name ≠ ".." := by
    rintro rfl
    exact hpoint (by decide)
  simp [fileName?, components, pieces, splitAt_of_notMem hslash, hidle, hup]

theorem stem_eq_self (hpoint : '.' ∉ name.toList) : stem name = name := by
  have hbefore : ∀ c ∈ name.toList.reverse, (c != '.') = true := by
    apply Text.bne_of_notMem
    rwa [List.mem_reverse]
  have hnone : name.toList.reverse.dropWhile (· != '.') = [] := by
    rw [← List.append_nil name.toList.reverse, List.dropWhile_append_of_pos hbefore]
    rfl
  rw [stem, hnone]

end Path

section EntityName

variable {entity : String} (h : Text.isEntityName entity.toList = true)

include h

theorem ne_empty_of_isEntityName : entity ≠ "" := by
  rintro rfl
  cases h

theorem Source.nameHint?_named (text : String) : (named entity text).nameHint? = some entity := by
  have hne := ne_empty_of_isEntityName h
  have hslash : '/' ∉ entity.toList := Text.notMem_of_isEntityName h (by decide +kernel)
  have hpoint : '.' ∉ entity.toList := Text.notMem_of_isEntityName h (by decide +kernel)
  simp [nameHint?, named, Path.fileName?_eq_self hne hslash hpoint, Path.stem_eq_self hpoint, hne]

theorem Source.readEntity_of_declared {text : String} {statements : List Statement}
    (htext : Definition.ofText (named entity text).label text = .ok ⟨some entity, statements⟩)
    (config : Config) :
    (named entity text).readEntity config = .ok (Entity.ofStatements entity statements) := by
  have hname : (named entity text).entityName (some entity) = .ok entity := by
    simp [entityName, h]
  have hmismatch : (named entity text).nameMismatch (some entity) = [] := by
    simp [nameMismatch, nameHint?_named h]
  have htext' : (named entity text).text = text := rfl
  rw [readEntity, htext', htext]
  simp only [bind, Except.bind, hname, hmismatch, ite_self, List.append_nil]
  rfl

theorem Definition.isPlainName_of_isEntityName : IsPlainName entity := by
  refine ⟨ne_empty_of_isEntityName h, fun c hc => ?_, fun hi => ?_, fun hmark => ?_⟩
  · have hchar := Text.isIdentifierChar_of_mem (Text.isIdentifier_of_isEntityName h) hc
    have hplain := Scanner.isPlain_of_isIdentifierChar hchar
    simp only [Scanner.isPlain, Bool.and_eq_true, Bool.not_eq_true', List.contains_eq_mem,
      decide_eq_false_iff_not, List.mem_cons, not_or] at hplain
    simp [Scanner.isNameChar, hplain]
  · have hslash : '/' ∈ entity.toList := hi.subset (by decide)
    exact Text.notMem_of_isEntityName h (by decide +kernel) hslash
  · exact Text.notMem_of_isEntityName h (by decide +kernel) (List.mem_of_mem_head? hmark)

end EntityName

theorem Compilation.ofCollection_single [Naming] (directions : LinkDirections) (suffix : String)
    {e : Entity} (hkeys : e.foreignKeys = []) :
    ofCollection directions suffix (Collection.empty.addReported (e, [])) =
      ⟨⟨OrderedMap.empty.insert e.name e⟩, []⟩ := by
  obtain ⟨name, attributes, foreignKeys, links, params, tags, table?⟩ := e
  subst hkeys
  have hplans (m : Model) :
      m.linkPlans directions suffix ⟨name, attributes, [], links, params, tags, table?⟩ = [] := by
    simp only [Model.linkPlans, List.filter_nil]
    split
    · rename_i hnil
      cases hnil
    · rfl
  have hbuilt : (Collection.empty.addReported
      (⟨name, attributes, [], links, params, tags, table?⟩, [])).build =
      (⟨OrderedMap.empty.insert name ⟨name, attributes, [], links, params, tags, table?⟩⟩, []) :=
    rfl
  have hresolved (m : Model)
      (hm : m.toList = [⟨name, attributes, [], links, params, tags, table?⟩]) :
      m.resolveLinks directions suffix = (m, []) := by
    simp only [Model.resolveLinks, hm, List.flatMap_singleton, hplans]
    rfl
  simp only [ofCollection, hbuilt]
  rw [hresolved _ rfl]
  rfl

def quotedLines (entity : String) (fields : List QuotedField) : List (List Char) :=
  (entity.toList ++ [' ', '\x7b']) :: (fields.map QuotedField.line ++ [['\x7d']])

theorem quotedLines_eq (entity : String) (fields : List QuotedField) :
    quotedLines entity fields =
      Definition.writtenLines .plain (some entity) (fields.map QuotedField.form) := by
  simp [quotedLines, Definition.writtenLines, Definition.writtenName, QuotedField.written_form]

section Compile

variable {entity : String} (h : Text.isEntityName entity.toList = true)

include h

/-- A text that puts the lines one after the other has these lines. -/
theorem lines_quotedLines (fields : List QuotedField) :
    Text.lines ((quotedLines entity fields).flatMap fun line => line ++ ['\n']) =
      quotedLines entity fields := by
  have hname : ∀ name ∈ some entity, Definition.IsPlainName name := by
    simpa using Definition.isPlainName_of_isEntityName h
  have hforms : ∀ f ∈ fields.map QuotedField.form, f.IsWellFormed := by
    simpa using fun f _ => QuotedField.isWellFormed_form f
  have hlines := Definition.lines_printed .plain hname hforms
  rwa [Definition.printed, String.toList_ofList, ← quotedLines_eq] at hlines

variable {text : String} {fields : List QuotedField}

theorem Definition.ofText_quotedLines (label : String)
    (htext : Text.lines text.toList = quotedLines entity fields) :
    ofText label text =
      .ok ⟨some entity, fields.mapIdx fun i f => f.form.toStatement (i + 2)⟩ := by
  have hname : ∀ name ∈ some entity, IsPlainName name := by
    simpa using isPlainName_of_isEntityName h
  have hforms : ∀ f ∈ fields.map QuotedField.form, f.IsWellFormed := by
    simpa using fun f _ => QuotedField.isWellFormed_form f
  rw [ofText, htext, quotedLines_eq, ofLines_writtenLines label .plain hname hforms]
  have hstatements : (fields.map QuotedField.form).mapIdx (fun i f => f.toStatement (i + 2)) =
      fields.mapIdx fun i f => f.form.toStatement (i + 2) :=
    List.ext_getElem (by simp) (by simp)
  rw [hstatements]

theorem Source.readEntity_quotedLines (hnames : (fields.map QuotedField.name).Nodup)
    (htext : Text.lines text.toList = quotedLines entity fields) (config : Config) :
    (named entity text).readEntity config =
      .ok ({ Entity.ofName entity with
        attributes := fields.mapIdx fun i f => f.toAttribute (i + 2) }, []) := by
  have hdefinition := Definition.ofText_quotedLines h (named entity text).label htext
  rw [readEntity_of_declared h hdefinition, Entity.ofStatements_forms entity 2 hnames]

/-- What stands in quotes is contained there: every default value and every label comes out as it
was written, and nothing is reported. -/
theorem compileText_quotedLines [Naming] (hnames : (fields.map QuotedField.name).Nodup)
    (htext : Text.lines text.toList = quotedLines entity fields) :
    (compileText entity text).diagnostics = [] ∧
      ∃ e, (compileText entity text).model.toList = [e] ∧ e.name = entity ∧
        e.attributes.map (fun a => (a.name, a.default?, a.tags.find? "Label")) =
          fields.map fun f => (f.name, some f.default.text, some (some f.label.text)) := by
  have hread := Source.readEntity_quotedLines h hnames htext .default
  have hcompile : compileText entity text = ⟨⟨OrderedMap.empty.insert entity
      { Entity.ofName entity with
        attributes := fields.mapIdx fun i f => f.toAttribute (i + 2) }⟩, []⟩ := by
    rw [compileText, compileSources, List.foldl_cons, List.foldl_nil, Collection.addSource, hread]
    exact Compilation.ofCollection_single _ _ rfl
  rw [hcompile]
  refine ⟨rfl, _, rfl, rfl, List.ext_getElem (by simp) fun i hi hi' => ?_⟩
  simp [QuotedField.toAttribute, Attribute.ofType, OrderedMap.find?_insert]

end Compile

/-- A default value with a semicolon, a comment, a brace, a parenthesis and a double quote, and a
label with a single quote. -/
def noteField : QuotedField :=
  ⟨"note", by decide +kernel, ⟨"; // \x7d, #a(\"", '\'', by decide, by decide, by decide⟩,
    ⟨"it's", '"', by decide, by decide, by decide⟩⟩

def blankField : QuotedField :=
  ⟨"blank", by decide +kernel, ⟨"", '"', by decide, by decide, by decide⟩,
    ⟨" ", '\'', by decide, by decide, by decide⟩⟩

def memoText : String :=
  "Memo \x7b\n" ++
    "note : string \x7b Default('; // \x7d, #a(\"'), #Label(\"it's\") \x7d ;\n" ++
    "blank : string \x7b Default(\"\"), #Label(' ') \x7d ;\n" ++
    "\x7d"

theorem compileText_memoText :
    (compileText "Memo" memoText).diagnostics = [] ∧
      ∃ e, (compileText "Memo" memoText).model.toList = [e] ∧ e.name = "Memo" ∧
        e.attributes.map (fun a => (a.name, a.default?, a.tags.find? "Label")) =
          [("note", some "; // \x7d, #a(\"", some (some "it's")),
            ("blank", some "", some (some " "))] := by
  have hentity : Text.isEntityName ("Memo" : String).toList = true := by decide +kernel
  have htext : Text.lines memoText.toList = quotedLines "Memo" [noteField, blankField] := by
    decide +kernel
  exact compileText_quotedLines hentity (by decide) htext

end EntityModel
