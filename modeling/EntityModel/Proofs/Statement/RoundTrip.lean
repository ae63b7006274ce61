import EntityModel.Definition
import EntityModel.Proofs.Statement.Printing
import Mathlib.Data.List.Infix

/-!
# Printing definitions

A definition is printed with its name and the opening brace on the first line, and with one
statement on each line after it. What is printed is read back as it was.
-/

namespace EntityModel

namespace Scanner

variable {line : Nat}

def isNameChar (c : Char) : Bool :=
  !Text.isLayout c && !([';', '\x7b', '\x7d', '\'', '"'].contains c)

theorem chars_name {s : Scanner} {cs : List Char} (hs : s.phase = .preamble)
    (he : s.nameEnded = false)
    (h : ∀ c ∈ cs, isNameChar c = true) (hc : ¬ ['/', '/'] <:+: cs) {rest : List Char}
    (hr : rest.head? ≠ some '/') :
    s.chars line none (cs ++ rest) =
      { s with name := s.name ++ String.ofList cs }.chars line none rest := by
  induction cs generalizing s with
  | nil => simp
  | cons c cs ih =>
      have hchar := h c (by simp)
      simp only [isNameChar, Bool.and_eq_true, Bool.not_eq_true', List.contains_eq_mem,
        decide_eq_false_iff_not, List.mem_cons, not_or] at hchar
      have hpush : s.char line c = .ok ({ s with name := s.name.push c }, none) := by
        have hname : s.preambleChar c = .ok { s with name := s.name.push c } := by
          rw [preambleChar]
          · simp [he]
          all_goals simp [hchar.2]
        simp only [char, hs, hname]
        rfl
      have hslash : c = '/' → (cs ++ rest).head? ≠ some '/' := by
        rintro rfl hhead
        cases cs with
        | nil => exact hr hhead
        | cons d cs =>
            obtain rfl : d = '/' := by simpa using hhead
            exact hc (List.infix_append' [] ['/', '/'] cs)
      have hquote : Text.quoteAfter none c = none := by
        simp [Text.quoteAfter, Text.isQuote, hchar.2]
      have htail := ih (s := { s with name := s.name.push c }) hs he
        (fun d hd => h d (by simp [hd])) fun hi => hc (List.infix_cons hi)
      have htext : s.name.push c ++ String.ofList cs = s.name ++ String.ofList (c :: cs) := by
        simp [← String.toList_inj]
      rw [List.cons_append, chars_char_none hchar.1 hslash hpush, hquote, htail, htext]

end Scanner

namespace Definition

/-- A name that can stand before a body: a single word without braces, semicolons and quotes, in
which no comment starts, and which does not start with a byte order mark. -/
structure IsPlainName (name : String) : Prop where
  ne_empty : name ≠ ""
  chars : ∀ c ∈ name.toList, Scanner.isNameChar c = true
  no_comment : ¬ ['/', '/'] <:+: name.toList
  no_mark : name.toList.head? ≠ some '\uFEFF'

instance (name : String) : Decidable (IsPlainName name) :=
  decidable_of_iff (name ≠ "" ∧ name.toList.all Scanner.isNameChar = true ∧
      ¬ ['/', '/'] <:+: name.toList ∧ name.toList.head? ≠ some '\uFEFF')
    ⟨fun h => ⟨h.1, List.all_eq_true.1 h.2.1, h.2.2.1, h.2.2.2⟩,
      fun h => ⟨h.1, List.all_eq_true.2 h.2, h.3, h.4⟩⟩

def writtenName (name? : Option String) : List Char :=
  match name? with
  | some name => name.toList ++ [' ', '\x7b']
  | none => ['\x7b']

/-- A definition as it is printed: the name and the opening brace on the first line, then a line
for each statement, and the closing brace. -/
def writtenLines (spelling : Element.Spelling) (name? : Option String)
    (forms : List StatementForm) : List (List Char) :=
  writtenName name? :: (forms.map (StatementForm.written spelling) ++ [['\x7d']])

def printed (spelling : Element.Spelling) (name? : Option String) (forms : List StatementForm) :
    String :=
  String.ofList ((writtenLines spelling name? forms).flatMap fun line => line ++ ['\n'])

end Definition

namespace Scanner

private theorem chars_opening {name : String} (h : name ≠ "") (line : Nat) :
    (⟨.preamble, name, false, .empty, line⟩ : Scanner).chars line none [' ', '\x7b'] =
      .ok (⟨.body, name, true, .empty, line⟩, []) := by
  have hend : (⟨.preamble, name, false, .empty, line⟩ : Scanner).endName =
      ⟨.preamble, name, true, .empty, line⟩ := by simp [endName, h]
  have hlayout : Text.isLayout ' ' = true := by decide
  rw [chars]
  simp only [Option.isSome_none, Bool.false_eq_true, if_false, hlayout, if_true, hend]
  exact (chars_char_none (by decide) (by simp) rfl).trans (chars_nil_of_body rfl)

theorem step_writtenName {name? : Option String} (h : ∀ name ∈ name?, Definition.IsPlainName name)
    (label : String) :
    ∃ nameEnded, initial.step label 1 (Definition.writtenName name?) =
      .ok (⟨.body, name?.getD "", nameEnded, .empty, 1⟩, []) := by
  cases name? with
  | none => exact ⟨false, rfl⟩
  | some name =>
      refine ⟨true, ?_⟩
      have hname := h name rfl
      have hmark : withoutByteOrderMark 1 (name.toList ++ [' ', '\x7b']) =
          name.toList ++ [' ', '\x7b'] := by
        obtain ⟨c, cs, hcs⟩ :=
          List.exists_cons_of_ne_nil (mt String.toList_eq_nil_iff.1 hname.ne_empty)
        have hc := hname.no_mark
        rw [hcs] at hc ⊢
        simpa [withoutByteOrderMark] using hc
      have hread : (⟨.preamble, "", false, .empty, 1⟩ : Scanner).chars 1 none
          (name.toList ++ [' ', '\x7b']) = .ok (⟨.body, name, true, .empty, 1⟩, []) := by
        rw [chars_name rfl rfl hname.chars hname.no_comment (by simp), String.ofList_toList,
          String.empty_append, chars_opening hname.ne_empty]
      refine step_of_chars ?_ label
      rw [Definition.writtenName, hmark]
      exact hread

theorem step_form {s : Scanner} {f : StatementForm} {cs : List Char} (hf : f.IsReadFrom cs)
    (hs : s.phase = .body) (hd : s.draft = .empty) {line : Nat} (hline : line ≠ 1)
    (label : String) :
    s.step label line cs = .ok ({ s with lastLine := line }, [f.toStatement line]) := by
  refine step_of_chars ?_ label
  rw [withoutByteOrderMark_of_ne_one hline]
  exact hf _ line hs hd

theorem step_closing {s : Scanner} (hs : s.phase = .body) (hd : s.draft = .empty) {line : Nat}
    (hline : line ≠ 1) (label : String) :
    s.step label line ['\x7d'] = .ok ({ s with phase := .closed, lastLine := line }, []) := by
  obtain ⟨phase, name, nameEnded, draft, lastLine⟩ := s
  simp only at hs hd
  subst hs hd
  have hchar : (⟨.body, name, nameEnded, .empty, line⟩ : Scanner).char line '\x7d' =
      .ok (⟨.closed, name, nameEnded, .empty, line⟩, none) := rfl
  refine step_of_chars ?_ label
  rw [withoutByteOrderMark_of_ne_one hline, chars_char_none (by decide) (by simp) hchar]
  rfl

end Scanner

namespace Definition

theorem ofLines_of_step {label : String} {s next : Scanner} {n : Nat} {line : List Char}
    {unread : List (List Char)} {statements : List Statement} {rest : Definition}
    (h : s.step label (n + 1) line = .ok (next, statements))
    (hrest : ofLines label next (n + 1) unread = .ok rest) :
    ofLines label s n (line :: unread) =
      .ok ⟨rest.declaredName?, statements ++ rest.statements⟩ := by
  rw [ofLines, h]
  simp only [bind, Except.bind, hrest]
  rfl

theorem ofLines_forms (label : String) {s : Scanner} {n : Nat}
    {write : StatementForm → List Char} {forms : List StatementForm}
    (hforms : ∀ f ∈ forms, f.IsReadFrom (write f)) (hs : s.phase = .body)
    (hd : s.draft = .empty) (hn : n ≠ 0) :
    ofLines label s n (forms.map write ++ [['\x7d']]) =
      .ok ⟨s.declaredName?, forms.mapIdx fun i f => f.toStatement (i + (n + 1))⟩ := by
  induction forms generalizing s n with
  | nil =>
      have hclose := Scanner.step_closing hs hd (show n + 1 ≠ 1 by omega) label
      rw [List.map_nil, List.nil_append, ofLines_of_step hclose rfl]
      rfl
  | cons f forms ih =>
      have hstep := Scanner.step_form (hforms f (by simp)) hs hd (show n + 1 ≠ 1 by omega) label
      have hrest := ih (s := { s with lastLine := n + 1 }) (n := n + 1)
        (fun g hg => hforms g (by simp [hg])) hs hd (by omega)
      rw [List.map_cons, List.cons_append, ofLines_of_step hstep hrest, List.mapIdx_cons]
      simp [Nat.add_comm, Nat.add_left_comm, Scanner.declaredName?]

theorem ofLines_definition (label : String) {name? : Option String}
    {write : StatementForm → List Char} {forms : List StatementForm}
    (hname : ∀ name ∈ name?, IsPlainName name) (hforms : ∀ f ∈ forms, f.IsReadFrom (write f)) :
    ofLines label .initial 0 (writtenName name? :: (forms.map write ++ [['\x7d']])) =
      .ok ⟨name?, forms.mapIdx fun i f => f.toStatement (i + 2)⟩ := by
  obtain ⟨nameEnded, hopening⟩ := Scanner.step_writtenName hname label
  have hdeclared : (⟨.body, name?.getD "", nameEnded, .empty, 1⟩ : Scanner).declaredName? =
      name? := by
    cases name? with
    | none => rfl
    | some name => simp [Scanner.declaredName?, (hname name rfl).ne_empty]
  have hbody := ofLines_forms label (n := 1)
    (s := ⟨.body, name?.getD "", nameEnded, .empty, 1⟩) hforms rfl rfl (by omega)
  rw [hdeclared] at hbody
  rw [ofLines_of_step hopening hbody]
  rfl

end Definition

namespace StatementForm

variable {f : StatementForm}

theorem newline_notMem_writtenDeclaration (hf : f.IsWellFormed) : '\n' ∉ f.writtenDeclaration := by
  have hidentifier {cs : List Char} (h : Text.isIdentifier cs = true) : '\n' ∉ cs :=
    Text.notMem_of_isIdentifier h (Text.not_isIdentifierChar_of_isLayout (by decide))
  rcases hf.declares with ⟨hn, ht⟩ | ⟨hname, -, -⟩
  · rw [writtenDeclaration]
    split
    · simp
    · simp [hidentifier hn, hidentifier ht]
  · simp [writtenDeclaration, hname]

theorem newline_notMem_written (spelling : Element.Spelling) (hf : f.IsWellFormed) :
    '\n' ∉ f.written spelling := by
  have hblock : '\n' ∉ f.writtenBlock spelling := by
    have hall := Element.newline_notMem_writtenAll spelling hf.elements
    rw [writtenBlock]
    split
    · simp
    · simp [hall]
  simp [written, newline_notMem_writtenDeclaration hf, hblock]

theorem newline_notMem_writtenInBraces (spelling : Element.Spelling) (hf : f.IsWellFormed) :
    '\n' ∉ f.writtenInBraces spelling := by
  have hall := Element.newline_notMem_writtenAll spelling hf.elements
  simp [writtenInBraces, newline_notMem_writtenDeclaration hf, hall]

theorem getLast?_writtenInBraces (spelling : Element.Spelling) (f : StatementForm) :
    (f.writtenInBraces spelling).getLast? = some ';' := by
  have hend : f.writtenInBraces spelling = f.writtenDeclaration ++
      '\x7b' :: ' ' :: (Element.writtenAll spelling f.elements ++ [' ', '\x7d', ' ']) ++ [';'] := by
    simp [writtenInBraces]
  rw [hend, List.getLast?_concat]

end StatementForm

namespace Definition

theorem newline_notMem_writtenName {name? : Option String} (h : ∀ name ∈ name?, IsPlainName name) :
    '\n' ∉ writtenName name? := by
  cases name? with
  | none => simp [writtenName]
  | some name =>
      have hmem : '\n' ∉ name.toList := fun hmem => absurd ((h name rfl).chars _ hmem) (by decide)
      simp [writtenName, hmem]

theorem lines_definition {name? : Option String} {write : StatementForm → List Char}
    {forms : List StatementForm} (hname : ∀ name ∈ name?, IsPlainName name)
    (hforms : ∀ f ∈ forms, '\n' ∉ write f ∧ (write f).getLast? ≠ some '\r') :
    Text.lines ((writtenName name? :: (forms.map write ++ [['\x7d']])).flatMap
      fun line => line ++ ['\n']) = writtenName name? :: (forms.map write ++ [['\x7d']]) := by
  refine Text.lines_flatMap fun line hline => ?_
  simp only [List.mem_cons, List.mem_append, List.mem_map, List.not_mem_nil, or_false] at hline
  rcases hline with rfl | ⟨f, hf, rfl⟩ | rfl
  · refine ⟨newline_notMem_writtenName hname, ?_⟩
    cases name? <;> simp [writtenName, List.getLast?_append]
  · exact hforms f hf
  · simp

theorem lines_printed (spelling : Element.Spelling) {name? : Option String}
    {forms : List StatementForm} (hname : ∀ name ∈ name?, IsPlainName name)
    (hforms : ∀ f ∈ forms, f.IsWellFormed) :
    Text.lines (printed spelling name? forms).toList = writtenLines spelling name? forms := by
  rw [printed, String.toList_ofList]
  refine lines_definition hname fun f hf => ?_
  refine ⟨StatementForm.newline_notMem_written spelling (hforms f hf), ?_⟩
  simp [StatementForm.written]

theorem ofLines_writtenLines (label : String) (spelling : Element.Spelling) {name? : Option String}
    {forms : List StatementForm} (hname : ∀ name ∈ name?, IsPlainName name)
    (hforms : ∀ f ∈ forms, f.IsWellFormed) :
    ofLines label .initial 0 (writtenLines spelling name? forms) =
      .ok ⟨name?, forms.mapIdx fun i f => f.toStatement (i + 2)⟩ :=
  ofLines_definition label hname fun f hf => f.isReadFrom_written spelling (hforms f hf)

/-- A printed definition is read back: its name, and each statement with its attribute, its
annotations, its tags and its line. -/
theorem ofText_printed (label : String) (spelling : Element.Spelling) {name? : Option String}
    {forms : List StatementForm} (hname : ∀ name ∈ name?, IsPlainName name)
    (hforms : ∀ f ∈ forms, f.IsWellFormed) :
    ofText label (printed spelling name? forms) =
      .ok ⟨name?, forms.mapIdx fun i f => f.toStatement (i + 2)⟩ := by
  rw [ofText, lines_printed spelling hname hforms]
  exact ofLines_writtenLines label spelling hname hforms

theorem ofText_printed_person :
    ofText "person" (printed .plain (some "Person")
        [⟨"", "", ["#t(x,(y))", "@DbTable('a;b,\x7b//')"]⟩, ⟨"id", "Long", []⟩,
          ⟨"home", "String", ["@DefaultValue(http://a)", "#web", "@Max(\"12)\")"]⟩]) =
      .ok ⟨some "Person",
        [⟨"", "", [⟨"@DbTable('a;b,\x7b//')", 2⟩], [⟨"#t(x,(y))", 2⟩], 2⟩,
          ⟨"id", "Long", [], [], 3⟩,
          ⟨"home", "String", [⟨"@DefaultValue(http://a)", 4⟩, ⟨"@Max(\"12)\")", 4⟩],
            [⟨"#web", 4⟩], 4⟩]⟩ := by
  have hname : ∀ name ∈ some "Person", IsPlainName name := by decide
  rw [ofText_printed "person" .plain hname (by decide +kernel)]
  exact congrArg Except.ok (by decide +kernel)

end Definition

end EntityModel
