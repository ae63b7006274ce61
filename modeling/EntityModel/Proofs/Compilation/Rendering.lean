import EntityModel.Proofs.Annotations.KeyEntries
import EntityModel.Proofs.Compilation.QuotedValues
import EntityModel.Proofs.Entity.OrderedKeys

/-!
# Rendered entities

An entity is rendered as a definition, with one line for each attribute, on which the column of a
foreign key is written with the name of the key and what it refers to. What is read from the
definition is one statement for each attribute.
-/

namespace EntityModel

theorem NeutralType.ofName?_name (type : NeutralType) : ofName? type.name = some type := by
  cases type <;> decide +kernel

namespace KeyColumn

def reference (c : KeyColumn) : String :=
  match c.binding.referenced? with
  | some attr => c.ends.2 ++ "." ++ attr
  | none => c.ends.2

def rendered (c : KeyColumn) : String := "FK('" ++ c.ends.1 ++ "', '" ++ c.reference ++ "')"

end KeyColumn

namespace Entity

def annotationsOn (e : Entity) (a : Attribute) : List String :=
  (if a.isKey then ["Id"] else []) ++ (e.columnOn? a.name).toList.map KeyColumn.rendered

def renderedAttribute (e : Entity) (a : Attribute) : String :=
  a.name ++ " : " ++ a.type.name ++ " \x7b " ++ ", ".intercalate (e.annotationsOn a) ++ " \x7d ;"

def rendered (e : Entity) : String :=
  e.name ++ " \x7b\n" ++ String.join (e.attributes.map fun a => e.renderedAttribute a ++ "\n") ++
    "\x7d\n"

end Entity

namespace KeyColumn

/-- The name can stand in single quotes on a line, and the rest consists of identifiers. -/
structure IsWritable (c : KeyColumn) : Prop where
  quote_notMem : '\'' ∉ c.ends.1.toList
  newline_notMem : '\n' ∉ c.ends.1.toList
  isEntityName : Text.isEntityName c.ends.2.toList = true
  isIdentifier : ∀ attr ∈ c.binding.referenced?, Text.isIdentifier attr.toList = true

variable {c : KeyColumn}

theorem IsWritable.notMem_reference (h : c.IsWritable) {d : Char}
    (hd : Text.isIdentifierChar d = false) (hpoint : d ≠ '.') : d ∉ c.reference.toList := by
  have hentity := Text.notMem_of_isEntityName h.isEntityName hd
  rw [reference]
  cases hattr : c.binding.referenced? with
  | none => exact hentity
  | some attr => simp [hentity, hpoint, Text.notMem_of_isIdentifier (h.isIdentifier attr hattr) hd]

theorem IsWritable.ofReference_eq (h : c.IsWritable) (keyName? : Option String) :
    ForeignKeyTarget.ofReference keyName? c.reference =
      ⟨keyName?, c.ends.2, c.binding.referenced?⟩ := by
  have hpoint : '.' ∉ c.ends.2.toList :=
    Text.notMem_of_isEntityName h.isEntityName (by decide +kernel)
  rw [reference]
  cases c.binding.referenced? with
  | none => exact ForeignKeyTarget.ofReference_of_notMem keyName? hpoint
  | some attr =>
      have hcs : (c.ends.2 ++ "." ++ attr).toList = c.ends.2.toList ++ '.' :: attr.toList := by simp
      rw [ForeignKeyTarget.ofReference_append keyName? hcs hpoint, String.ofList_toList,
        String.ofList_toList]

theorem IsWritable.isReference (h : c.IsWritable) : isReference c.reference = true := by
  rw [ForeignKeyTarget.isReference_iff_isPlain none, h.ofReference_eq]
  have hpoint : '.' ∉ c.ends.2.toList :=
    Text.notMem_of_isEntityName h.isEntityName (by decide +kernel)
  refine ⟨ne_empty_of_isEntityName h.isEntityName, hpoint, fun attr hattr => ⟨?_, ?_⟩⟩
  · rintro rfl
    cases h.isIdentifier _ hattr
  · exact Text.notMem_of_isIdentifier (h.isIdentifier attr hattr) (by decide +kernel)

def entry (c : KeyColumn) : String := "FK('" ++ c.ends.1 ++ "','" ++ c.reference ++ "')"

def use (c : KeyColumn) (line : Nat) : AnnotationUse :=
  ⟨.foreignKey, .list [c.ends.1, c.reference], some line⟩

theorem IsWritable.exists_keyEntry (h : c.IsWritable) :
    ∃ name reference : QuotedText, name.text = c.ends.1 ∧ reference.text = c.reference ∧
      c.entry = name.keyEntry reference ∧
      c.rendered.toList = Element.Spelling.airy.write (name.keyEntry reference) := by
  have hquote := h.notMem_reference (d := '\'') (by decide +kernel) (by decide)
  have hnewline := h.notMem_reference (d := '\n') (by decide +kernel) (by decide)
  let name : QuotedText := ⟨c.ends.1, '\'', by decide, h.quote_notMem, h.newline_notMem⟩
  let reference : QuotedText := ⟨c.reference, '\'', by decide, hquote, hnewline⟩
  refine ⟨name, reference, rfl, rfl, ?_, ?_⟩
  · simp [← String.toList_inj, entry, QuotedText.toList_keyEntry, QuotedText.joined_pair,
      QuotedText.chars, name, reference]
  · rw [Element.write_airy_keyEntry]
    simp [rendered, QuotedText.chars, name, reference]

end KeyColumn

namespace Entity

def formOf (e : Entity) (a : Attribute) : StatementForm :=
  ⟨a.name, a.type.name,
    (if a.isKey then ["Id"] else []) ++ (e.columnOn? a.name).toList.map KeyColumn.entry⟩

def usesOn (e : Entity) (a : Attribute) (line : Nat) : List AnnotationUse :=
  (if a.isKey then [⟨.id, .none, some line⟩] else []) ++
    (e.columnOn? a.name).toList.map fun c => c.use line

structure IsWritable (e : Entity) : Prop where
  isEntityName : Text.isEntityName e.name.toList = true
  isIdentifier : ∀ a ∈ e.attributes, Text.isIdentifier a.name.toList = true
  columns : ∀ c ∈ e.keyColumns, c.IsWritable

variable {e : Entity} {a : Attribute}

theorem mem_elements_formOf {text : String} (h : text ∈ (e.formOf a).elements) :
    text = "Id" ∨ ∃ c ∈ e.keyColumns, text = c.entry := by
  rw [formOf, List.mem_append, List.mem_ite_nil_right, List.mem_singleton, List.mem_map] at h
  rcases h with ⟨-, rfl⟩ | ⟨c, hc, rfl⟩
  · exact .inl rfl
  · rw [Option.mem_toList] at hc
    exact .inr ⟨c, (of_columnOn?_eq_some hc).1, rfl⟩

theorem IsWritable.name_ne_empty (h : e.IsWritable) (ha : a ∈ e.attributes) : a.name ≠ "" := by
  intro hempty
  have hidentifier := h.isIdentifier a ha
  rw [hempty] at hidentifier
  cases hidentifier

theorem IsWritable.isWellFormed_formOf (h : e.IsWritable) (ha : a ∈ e.attributes) :
    (e.formOf a).IsWellFormed := by
  have htype : Text.isIdentifier a.type.name.toList = true := by
    cases a.type <;> decide +kernel
  refine ⟨.inl ⟨h.isIdentifier a ha, htype⟩, fun text htext => ?_⟩
  rcases mem_elements_formOf htext with rfl | ⟨c, hc, rfl⟩
  · decide
  · obtain ⟨name, reference, -, -, hentry, -⟩ := (h.columns c hc).exists_keyEntry
    rw [hentry]
    exact name.isWellFormed_keyEntry reference

theorem IsWritable.toStatement_formOf (h : e.IsWritable) (line : Nat) :
    (e.formOf a).toStatement line =
      ⟨a.name, a.type.name, (e.formOf a).elements.map (⟨·, line⟩), [], line⟩ := by
  have htag : ∀ text ∈ (e.formOf a).elements, Element.isTag text = false := by
    intro text htext
    rcases mem_elements_formOf htext with rfl | ⟨c, hc, rfl⟩
    · decide
    · obtain ⟨name, reference, -, -, hentry, -⟩ := (h.columns c hc).exists_keyEntry
      rw [hentry]
      exact name.isTag_keyEntry reference
  have hannotations : (e.formOf a).elements.filter (fun text => !Element.isTag text) =
      (e.formOf a).elements :=
    List.filter_eq_self.2 fun text htext => by rw [htag text htext]; rfl
  have htags : (e.formOf a).elements.filter Element.isTag = [] :=
    List.filter_eq_nil_iff.2 fun text htext => by rw [htag text htext]; decide
  rw [StatementForm.toStatement, hannotations, htags]
  rfl

theorem IsWritable.annotationOutcomes_formOf (h : e.IsWritable) (line : Nat) :
    annotationOutcomes [] ((e.formOf a).elements.map (⟨·, line⟩)) = (e.usesOn a line).map .ok := by
  have hid : AnnotationUse.ofText "Id" (some line) = .ok ⟨.id, .none, some line⟩ := rfl
  have hkey {c : KeyColumn} (hc : e.columnOn? a.name = some c) :
      AnnotationUse.ofText c.entry (some line) = .ok (c.use line) := by
    have hwritable := h.columns c (of_columnOn?_eq_some hc).1
    obtain ⟨name, reference, hname, hreference, hentry, -⟩ := hwritable.exists_keyEntry
    have hvalid : isReference reference.text = true := hreference ▸ hwritable.isReference
    rw [hentry, AnnotationUse.ofText_keyEntry name reference hvalid, hname, hreference]
    rfl
  rw [formOf, usesOn]
  cases a.isKey <;> cases hc : e.columnOn? a.name with
  | none => simp [annotationOutcomes, hid]
  | some c => simp [annotationOutcomes, hid, hkey hc, KeyColumn.use]

theorem IsWritable.writtenAll_formOf (h : e.IsWritable) (a : Attribute) :
    Element.writtenAll .airy (e.formOf a).elements =
      (", ".intercalate (e.annotationsOn a)).toList := by
  have hid : Element.Spelling.airy.write "Id" = "Id".toList := by decide
  have hkey {c : KeyColumn} (hc : e.columnOn? a.name = some c) :
      Element.Spelling.airy.write c.entry = c.rendered.toList := by
    have hwritable := h.columns c (of_columnOn?_eq_some hc).1
    obtain ⟨name, reference, -, -, hentry, hrendered⟩ := hwritable.exists_keyEntry
    rw [hentry, hrendered]
  rw [formOf, annotationsOn]
  cases a.isKey <;> cases hc : e.columnOn? a.name with
  | none => simp [Element.writtenAll, hid]
  | some c => simp [Element.writtenAll, hid, hkey hc]

theorem IsWritable.writtenInBraces_formOf (h : e.IsWritable) (ha : a ∈ e.attributes) :
    (e.formOf a).writtenInBraces .airy = (e.renderedAttribute a).toList := by
  have hname : (e.formOf a).name ≠ "" := h.name_ne_empty ha
  rw [StatementForm.writtenInBraces, StatementForm.writtenDeclaration, if_neg hname,
    h.writtenAll_formOf]
  simp [renderedAttribute, formOf]

theorem IsWritable.ofText_rendered (h : e.IsWritable) (label : String) :
    Definition.ofText label e.rendered =
      .ok ⟨some e.name, (e.attributes.map e.formOf).mapIdx fun i f => f.toStatement (i + 2)⟩ := by
  have hname : ∀ name ∈ some e.name, Definition.IsPlainName name := by
    simpa using Definition.isPlainName_of_isEntityName h.isEntityName
  have hforms : ∀ f ∈ e.attributes.map e.formOf, f.IsWellFormed ∧ f.name ≠ "" := by
    intro f hf
    obtain ⟨a, ha, rfl⟩ := List.mem_map.1 hf
    exact ⟨h.isWellFormed_formOf ha, h.name_ne_empty ha⟩
  have hwritten : ∀ f ∈ e.attributes.map e.formOf, '\n' ∉ f.writtenInBraces .airy ∧
      (f.writtenInBraces .airy).getLast? ≠ some '\r' := fun f hf =>
    ⟨f.newline_notMem_writtenInBraces .airy (hforms f hf).1, by
      simp [StatementForm.getLast?_writtenInBraces]⟩
  have htext : e.rendered.toList =
      (Definition.writtenName (some e.name) ::
        ((e.attributes.map e.formOf).map (StatementForm.writtenInBraces .airy) ++
          [['\x7d']])).flatMap fun line => line ++ ['\n'] := by
    have hforms : (e.attributes.map e.formOf).map (StatementForm.writtenInBraces .airy) =
        e.attributes.map fun a => (e.renderedAttribute a).toList := by
      rw [List.map_map]
      exact List.map_congr_left fun a ha => h.writtenInBraces_formOf ha
    rw [hforms]
    simp [rendered, Definition.writtenName, List.flatMap_map]
  rw [Definition.ofText, htext, Definition.lines_definition hname hwritten]
  exact Definition.ofLines_definition label hname fun f hf =>
    f.isReadFrom_writtenInBraces .airy (hforms f hf).1 (hforms f hf).2

end Entity

end EntityModel
