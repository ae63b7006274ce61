import EntityModel.Proofs.Statement.Reading
import EntityModel.Proofs.Text.Identifier

/-!
# Printing statements

A statement is printed on one line, with its elements in one block. Read from a state in which
nothing is left of the statements before it, the line gives the statement back.
-/

namespace EntityModel

namespace Element

/-- How an element may be written. Outside quotes there may be layout between its characters, and
there must be some between two slashes, which would start a comment. -/
inductive Spells : Option Char → List Char → List Char → Prop where
  | nil (quote? : Option Char) : Spells quote? [] []
  | layout {cs written : List Char} {c : Char} (hc : Text.isLayout c = true) (hn : c ≠ '\n')
      (h : Spells none cs written) : Spells none cs (c :: written)
  | char {quote? : Option Char} {cs written : List Char} {c : Char}
      (hc : quote? = none → c = '/' → written.head? ≠ some '/')
      (h : Spells (Text.quoteAfter quote? c) cs written) : Spells quote? (c :: cs) (c :: written)

theorem Spells.newline_notMem {quote? : Option Char} {cs written : List Char}
    (h : Spells quote? cs written) (hcs : '\n' ∉ cs) : '\n' ∉ written := by
  induction h with
  | nil => exact hcs
  | layout hc hn h ih =>
      rw [List.mem_cons, not_or]
      exact ⟨hn.symm, ih hcs⟩
  | char hc h ih =>
      rw [List.mem_cons, not_or] at hcs ⊢
      exact ⟨hcs.1, ih hcs.2⟩

structure Spelling where
  write : String → List Char
  spells : ∀ text, IsWellFormed text → Spells none text.toList (write text)

def spaced (quote? : Option Char) : List Char → List Char
  | [] => []
  | c :: rest =>
      if quote? = none ∧ c = '/' ∧ rest.head? = some '/' then
        c :: ' ' :: spaced (Text.quoteAfter quote? c) rest
      else c :: spaced (Text.quoteAfter quote? c) rest

theorem head?_spaced (quote? : Option Char) (cs : List Char) :
    (spaced quote? cs).head? = cs.head? := by
  cases cs with
  | nil => rfl
  | cons c rest =>
      rw [spaced]
      split <;> rfl

theorem spells_spaced (quote? : Option Char) (cs : List Char) :
    Spells quote? cs (spaced quote? cs) := by
  induction cs generalizing quote? with
  | nil => exact .nil quote?
  | cons c rest ih =>
      rw [spaced]
      split
      · rename_i hslash
        obtain ⟨rfl, rfl, -⟩ := hslash
        have hrest := ih none
        exact .char (by simp) (.layout (by decide) (by decide) hrest)
      · rename_i hslash
        refine .char (fun hquote hc hhead => hslash ⟨hquote, hc, ?_⟩) (ih _)
        rw [head?_spaced] at hhead
        exact hhead

def Spelling.plain : Spelling := ⟨fun text => spaced none text.toList, fun _ _ => spells_spaced _ _⟩

def isTag (text : String) : Bool := text.toList.head? == some '#'

end Element

namespace Scanner

variable {s : Scanner} {line : Nat}

theorem chars_spelled {b : Block} {n last : Nesting} {cs written rest : List Char}
    (hs : s.phase = .body) (hd : b.depth = n.depth) (hspell : Element.Spells n.quote? cs written)
    (h : n.afterAll? cs = some last) (hr : rest.head? ≠ some '/') :
    (s.setBlock (some b)).chars line n.quote? (written ++ rest) =
      (s.setBlock (some { b.pushAll line cs with depth := last.depth })).chars line last.quote?
        rest := by
  generalize hquote : n.quote? = quote? at hspell
  induction hspell generalizing b n with
  | nil =>
      obtain rfl : n = last := by simpa using h
      rw [← hd, ← hquote]
      rfl
  | layout hc hn hspell ih =>
      rw [List.cons_append, chars_layout (by simpa using hs) hc]
      exact ih hd h hquote
  | @char quote? cs written c hc hspell ih =>
      obtain ⟨next, hnext, hlast⟩ := Nesting.afterAll?_cons_eq_some.1 h
      have hnextQuote : next.quote? = Text.quoteAfter quote? c := by
        rw [Nesting.quote?_of_after? hnext, hquote]
      have hhead : n.quote? = none → c = '/' → (written ++ rest).head? ≠ some '/' := by
        intro hq hslash
        rw [List.head?_append]
        cases hwritten : written.head? with
        | none => simpa using hr
        | some d =>
            have hd := hc (hquote ▸ hq) hslash
            rw [hwritten] at hd
            simpa using hd
      have hpush : { b.push line c with depth := next.depth }.pushAll line cs =
          { b.pushAll line (c :: cs) with depth := next.depth } := by
        rw [Block.pushAll_depth, Block.pushAll_cons]
      have htail := ih (b := { b.push line c with depth := next.depth }) rfl hlast hnextQuote
      rw [hpush] at htail
      rw [List.cons_append, ← hquote, chars_element_char hs hd hnext hhead, hnextQuote]
      exact htail

theorem chars_element (spelling : Element.Spelling) {b : Block} {text : String} {rest : List Char}
    (hs : s.phase = .body) (hb : b.element = "" ∧ b.depth = 0) (h : Element.IsWellFormed text)
    (hr : rest.head? ≠ some '/') :
    (s.setBlock (some b)).chars line none (spelling.write text ++ rest) =
      (s.setBlock (some ⟨text, line, 0⟩)).chars line none rest := by
  obtain ⟨c, cs, hcs, -⟩ := h.exists_cons
  have hpush : b.pushAll line text.toList = ⟨text, line, 0⟩ := by
    rw [hcs, Block.pushAll_of_empty hb.1, ← hcs, String.ofList_toList, hb.2]
  have hread := @chars_spelled s line b .outside .outside text.toList _ rest hs hb.2
    (spelling.spells text h) h.2 hr
  rw [hpush] at hread
  exact hread

end Scanner

namespace Draft

def addAll (d : Draft) (line : Nat) (elements : List String) : Draft :=
  elements.foldl (fun d text => d.addElement ⟨text, line, 0⟩) d

theorem addElement_setBlock (d : Draft) (b : Block) (b? b'? : Option Block) :
    { ({ d with block? := b? } : Draft).addElement b with block? := b'? } =
      { d.addElement b with block? := b'? } := by
  simp only [addElement]
  split
  · rfl
  · split <;> rfl

theorem addAll_eq (d : Draft) (line : Nat) {elements : List String}
    (h : ∀ text ∈ elements, Element.IsWellFormed text) :
    d.addAll line elements =
      { d with
        annotations := d.annotations ++
          (elements.filter fun text => !Element.isTag text).map (⟨·, line⟩)
        tags := d.tags ++ (elements.filter Element.isTag).map (⟨·, line⟩) } := by
  induction elements generalizing d with
  | nil => simp [addAll]
  | cons text rest ih =>
      have htext := h text (by simp)
      have hempty : text.isEmpty = false := by simpa using htext.1
      have htag : Element.isTagText text = Element.isTag text := htext.isTagText_eq
      have hrest := ih (d.addElement ⟨text, line, 0⟩) fun t ht => h t (by simp [ht])
      rw [addAll, List.foldl_cons]
      refine hrest.trans ?_
      cases ht : Element.isTag text <;> simp [addElement, hempty, htag, ht]

end Draft

namespace Element

def writtenAll (spelling : Spelling) : List String → List Char
  | [] => []
  | [text] => spelling.write text
  | text :: rest => spelling.write text ++ ',' :: ' ' :: writtenAll spelling rest

theorem newline_notMem_writtenAll (spelling : Spelling) {elements : List String}
    (h : ∀ text ∈ elements, IsWellFormed text) : '\n' ∉ writtenAll spelling elements := by
  have hone {text : String} (ht : IsWellFormed text) : '\n' ∉ spelling.write text :=
    (spelling.spells text ht).newline_notMem (Nesting.newline_notMem_of_afterAll? ht.2)
  fun_induction writtenAll spelling elements with
  | case1 => simp
  | case2 text => exact hone (h text (by simp))
  | case3 text rest hne ih =>
      have hrest := ih fun t ht => h t (by simp [ht])
      simp [hone (h text (by simp)), hrest]

end Element

namespace Scanner

variable {s : Scanner} {line : Nat}

theorem chars_comma {text : String} (hs : s.phase = .body) (rest : List Char) :
    (s.setBlock (some ⟨text, line, 0⟩)).chars line none (',' :: rest) =
      ({ s with draft := s.draft.addElement ⟨text, line, 0⟩ }.setBlock
        (some ⟨"", line, 0⟩)).chars line none rest := by
  refine chars_char_none (by decide) (by simp) (char_setBlock hs ?_)
  simp only [blockChar, if_pos, Draft.addElement_setBlock]

theorem chars_closing_brace {b : Block} (hs : s.phase = .body) (hb : b.depth = 0)
    (rest : List Char) :
    (s.setBlock (some b)).chars line none ('\x7d' :: rest) =
      ({ s with draft := s.draft.addElement b }.setBlock none).chars line none rest := by
  refine chars_char_none (by decide) (by simp) (char_setBlock hs ?_)
  simp only [blockChar, hb, if_pos, Draft.addElement_setBlock]

theorem chars_elements (spelling : Element.Spelling) {b : Block} {elements : List String}
    {rest : List Char} (hs : s.phase = .body) (hb : b.element = "" ∧ b.depth = 0)
    (h : ∀ text ∈ elements, Element.IsWellFormed text) :
    (s.setBlock (some b)).chars line none
        (Element.writtenAll spelling elements ++ ' ' :: '\x7d' :: rest) =
      ({ s with draft := s.draft.addAll line elements }.setBlock none).chars line none rest := by
  induction elements generalizing s b with
  | nil =>
      have hempty : s.draft.addElement b = s.draft := by simp [Draft.addElement, hb.1]
      rw [Element.writtenAll, List.nil_append, chars_layout (by simpa using hs) (by decide),
        chars_closing_brace hs hb.2, hempty]
      rfl
  | cons text more ih =>
      have htext := h text (by simp)
      cases more with
      | nil =>
          rw [Element.writtenAll, chars_element spelling hs hb htext (by simp),
            chars_layout (by simpa using hs) (by decide), chars_closing_brace hs rfl]
          rfl
      | cons text' more =>
          have hmore := ih (s := { s with draft := s.draft.addElement ⟨text, line, 0⟩ })
            (b := ⟨"", line, 0⟩) hs ⟨rfl, rfl⟩ fun t ht => h t (by simp [ht])
          rw [Element.writtenAll, List.append_assoc, List.cons_append, List.cons_append,
            chars_element spelling hs hb htext (by simp), chars_comma hs,
            chars_layout (by simpa using hs) (by decide), hmore]
          · rfl
          · simp

def isPlain (c : Char) : Bool :=
  !Text.isLayout c && !([';', '\x7b', '\x7d', '\'', '"', '/'].contains c)

theorem isPlain_of_isIdentifierChar {c : Char} (h : Text.isIdentifierChar c = true) :
    isPlain c = true := by
  have hl : Text.isLayout c = false := by
    cases hl : Text.isLayout c with
    | false => rfl
    | true => rw [Text.not_isIdentifierChar_of_isLayout hl] at h; cases h
  have hm : c ∉ Text.markers := fun hm => by
    rw [Text.not_isIdentifierChar_of_mem_markers hm] at h; cases h
  simp only [Text.markers, List.mem_cons, not_or] at hm
  simp [isPlain, hl, hm]

theorem quoteAfter_of_isPlain {c : Char} (h : isPlain c = true) :
    Text.quoteAfter none c = none := by
  have hq : Text.isQuote c = false := by
    simp only [isPlain, Bool.and_eq_true, Bool.not_eq_true', List.contains_eq_mem,
      decide_eq_false_iff_not, List.mem_cons, not_or] at h
    simp [Text.isQuote, h.2]
  simp [Text.quoteAfter, hq]

def declare (s : Scanner) (line : Nat) (text : String) : Scanner :=
  { s with draft := { s.draft.startAt line with declaration := s.draft.declaration ++ text } }

@[simp] theorem phase_declare (s : Scanner) (line : Nat) (text : String) :
    (s.declare line text).phase = s.phase := rfl

theorem declare_declare (s : Scanner) (line : Nat) (text text' : String) :
    (s.declare line text).declare line text' = s.declare line (text ++ text') := by
  simp [declare, Draft.startAt, String.append_assoc]

theorem char_of_isPlain (hs : s.phase = .body) (hb : s.draft.block? = none) {c : Char}
    (h : isPlain c = true) : s.char line c = .ok (s.declare line (String.singleton c), none) := by
  simp only [isPlain, Bool.and_eq_true, Bool.not_eq_true', List.contains_eq_mem,
    decide_eq_false_iff_not, List.mem_cons, not_or] at h
  rw [char_outside_block hs hb, bodyChar]
  · rw [declare, ← String.push_eq_append]
    rfl
  all_goals simp [h]

theorem chars_declaration {cs : List Char} (hs : s.phase = .body) (hb : s.draft.block? = none)
    (hne : cs ≠ []) (h : ∀ c ∈ cs, isPlain c = true) (rest : List Char) :
    s.chars line none (cs ++ rest) =
      (s.declare line (String.ofList cs)).chars line none rest := by
  induction cs generalizing s with
  | nil => exact absurd rfl hne
  | cons c cs ih =>
      have hc := h c (by simp)
      have hlayout : Text.isLayout c = false := by
        simp only [isPlain, Bool.and_eq_true, Bool.not_eq_true'] at hc
        exact hc.1
      have hslash : c ≠ '/' := by
        rintro rfl
        simp [isPlain] at hc
      have htext : String.singleton c ++ String.ofList cs = String.ofList (c :: cs) := by
        simp
      rw [List.cons_append, chars_char_none hlayout (fun heq => absurd heq hslash)
        (char_of_isPlain hs hb hc), quoteAfter_of_isPlain hc]
      cases cs with
      | nil => simp
      | cons c' cs =>
          have hrest := ih (s := s.declare line (String.singleton c)) hs hb (by simp)
            fun d hd => h d (by simp [hd])
          rw [hrest, declare_declare, htext]

theorem chars_word {text : String} (hs : s.phase = .body) (hb : s.draft.block? = none)
    (hne : text.toList ≠ []) (h : ∀ c ∈ text.toList, isPlain c = true) (rest : List Char) :
    s.chars line none (text.toList ++ ' ' :: rest) =
      (s.declare line text).chars line none rest := by
  rw [chars_declaration hs hb hne h, chars_layout (show (s.declare line _).phase = .body from hs)
    (by decide), String.ofList_toList]

def withElements (s : Scanner) (line : Nat) (elements : List String) : Scanner :=
  { s with draft := (s.draft.startAt line).addAll line elements }

@[simp] theorem phase_withElements (s : Scanner) (line : Nat) (elements : List String) :
    (s.withElements line elements).phase = s.phase := rfl

theorem chars_block (spelling : Element.Spelling) {elements : List String} {rest : List Char}
    (hs : s.phase = .body) (hb : s.draft.block? = none)
    (h : ∀ text ∈ elements, Element.IsWellFormed text) :
    s.chars line none
        ('\x7b' :: ' ' :: (Element.writtenAll spelling elements ++ ' ' :: '\x7d' :: rest)) =
      (s.withElements line elements).chars line none rest := by
  have hopen : s.char line '\x7b' =
      .ok ({ s with draft := s.draft.startAt line }.setBlock (some ⟨"", 0, 0⟩), none) := by
    rw [char_outside_block hs hb]
    rfl
  have hquote : Text.quoteAfter none '\x7b' = none := rfl
  have hblock : ((s.draft.startAt line).addAll line elements).block? = none := by
    rw [Draft.addAll_eq _ _ h]
    exact hb
  rw [chars_char_none (by decide) (by simp) hopen, hquote,
    chars_layout (by simpa using hs) (by decide),
    chars_elements spelling (s := { s with draft := s.draft.startAt line }) hs ⟨rfl, rfl⟩ h]
  simp only [withElements, setBlock, ← hblock]

theorem chars_semicolon {statement : Statement} (hs : s.phase = .body)
    (hb : s.draft.block? = none) (hv : s.draft.isVoid = false)
    (h : s.draft.toStatement line = .ok statement) :
    s.chars line none [';'] = .ok ({ s with draft := .empty }, [statement]) := by
  have hend : s.char line ';' = .ok ({ s with draft := .empty }, some statement) := by
    rw [char_outside_block hs hb, bodyChar]
    simp only [hv, Bool.false_eq_true, if_false, h]
    rfl
  have hquote : Text.quoteAfter none ';' = none := rfl
  rw [chars_char (by decide) (by simp) hend, hquote, chars_nil_of_body (by simpa using hs)]
  rfl

end Scanner

namespace Draft

theorem splitDeclaration_of_isIdentifier {name typeName : String}
    (hn : Text.isIdentifier name.toList = true) (ht : Text.isIdentifier typeName.toList = true) :
    splitDeclaration (name ++ ":" ++ typeName) = .ok (name, typeName) := by
  have hcolon : ∀ c ∈ name.toList, (c != ':') = true := by
    apply Text.bne_of_notMem
    apply Text.notMem_of_isIdentifier hn
    exact Text.not_isIdentifierChar_of_mem_markers (by decide)
  have hcs : (name ++ ":" ++ typeName).toList = name.toList ++ ':' :: typeName.toList := by
    simp
  rw [splitDeclaration, hcs]
  simp only [List.dropWhile_append_of_pos hcolon, List.takeWhile_append_of_pos hcolon]
  simp [hn, ht]

end Draft

/-- A statement without its line: what it declares, and its elements in the order in which they
are written. -/
structure StatementForm where
  -- empty, like the type, if the statement declares no attribute
  name : String
  typeName : String
  elements : List String
deriving Repr, DecidableEq

namespace StatementForm

structure IsWellFormed (f : StatementForm) : Prop where
  declares : Text.isIdentifier f.name.toList = true ∧ Text.isIdentifier f.typeName.toList = true ∨
    f.name = "" ∧ f.typeName = "" ∧ f.elements ≠ []
  elements : ∀ text ∈ f.elements, Element.IsWellFormed text

instance (f : StatementForm) : Decidable f.IsWellFormed :=
  decidable_of_iff (_ ∧ _) ⟨fun h => ⟨h.1, h.2⟩, fun h => ⟨h.1, h.2⟩⟩

theorem IsWellFormed.isIdentifier {f : StatementForm} (hf : f.IsWellFormed) (hname : f.name ≠ "") :
    Text.isIdentifier f.name.toList = true ∧ Text.isIdentifier f.typeName.toList = true := by
  rcases hf.declares with h | h
  · exact h
  · exact absurd h.1 hname

def writtenDeclaration (f : StatementForm) : List Char :=
  if f.name = "" then []
  else f.name.toList ++ ' ' :: ':' :: ' ' :: (f.typeName.toList ++ [' '])

def writtenBlock (spelling : Element.Spelling) (f : StatementForm) : List Char :=
  if f.elements = [] then []
  else '\x7b' :: ' ' :: (Element.writtenAll spelling f.elements ++ [' ', '\x7d', ' '])

def written (spelling : Element.Spelling) (f : StatementForm) : List Char :=
  f.writtenDeclaration ++ f.writtenBlock spelling ++ [';']

def toStatement (f : StatementForm) (line : Nat) : Statement :=
  ⟨f.name, f.typeName, (f.elements.filter fun text => !Element.isTag text).map (⟨·, line⟩),
    (f.elements.filter Element.isTag).map (⟨·, line⟩), line⟩

end StatementForm

namespace Scanner

variable {s : Scanner} {line : Nat}

theorem chars_writtenDeclaration {f : StatementForm} (hf : f.IsWellFormed) (hname : f.name ≠ "")
    (hs : s.phase = .body) (hb : s.draft.block? = none) (rest : List Char) :
    s.chars line none (f.writtenDeclaration ++ rest) =
      (s.declare line (f.name ++ ":" ++ f.typeName)).chars line none rest := by
  obtain ⟨hn, ht⟩ := hf.isIdentifier hname
  have hplain {name : String} (h : Text.isIdentifier name.toList = true) :
      name.toList ≠ [] ∧ ∀ c ∈ name.toList, isPlain c = true := by
    simp only [Text.isIdentifier, Bool.and_eq_true, Bool.not_eq_true', List.isEmpty_eq_false_iff,
      List.all_eq_true] at h
    exact ⟨h.1, fun c hc => isPlain_of_isIdentifierChar (h.2 c hc)⟩
  have hcolon : ∀ c ∈ (":" : String).toList, isPlain c = true := by
    intro c hc
    obtain rfl : c = ':' := by simpa using hc
    decide
  have htext : f.writtenDeclaration ++ rest = f.name.toList ++ ' ' ::
      ((":" : String).toList ++ ' ' :: (f.typeName.toList ++ ' ' :: rest)) := by
    simp [StatementForm.writtenDeclaration, hname]
  have hsame (text : String) : (s.declare line text).phase = .body ∧
      (s.declare line text).draft.block? = none := ⟨hs, hb⟩
  rw [htext, chars_word hs hb (hplain hn).1 (hplain hn).2,
    chars_word (hsame _).1 (hsame _).2 (by simp) hcolon, declare_declare,
    chars_word (hsame _).1 (hsame _).2 (hplain ht).1 (hplain ht).2, declare_declare]

theorem chars_writtenBlock (spelling : Element.Spelling) {f : StatementForm}
    (hf : f.IsWellFormed) (hs : s.phase = .body) (hb : s.draft.block? = none)
    (hstart : f.elements = [] → s.draft.startLine? = some line)
    (rest : List Char) :
    s.chars line none (f.writtenBlock spelling ++ rest) =
      (s.withElements line f.elements).chars line none rest := by
  by_cases hne : f.elements = []
  · have hdraft : s.draft.startAt line = s.draft := by
      rw [Draft.startAt, hstart hne, Option.getD_some, ← hstart hne]
    simp [StatementForm.writtenBlock, hne, withElements, Draft.addAll, hdraft]
  · have htext : f.writtenBlock spelling ++ rest =
        '\x7b' :: ' ' ::
          (Element.writtenAll spelling f.elements ++ ' ' :: '\x7d' :: ' ' :: rest) := by
      simp [StatementForm.writtenBlock, hne]
    rw [htext, chars_block spelling hs hb hf.elements,
      chars_layout (by simpa using hs) (by decide)]

private theorem chars_end_of_declared {f : StatementForm} (hf : f.IsWellFormed)
    (hname : f.name ≠ "") (hs : s.phase = .body) (hd : s.draft = .empty) :
    ((s.declare line (f.name ++ ":" ++ f.typeName)).withElements line f.elements).chars line none
      [';'] = .ok (s, [f.toStatement line]) := by
  obtain ⟨phase, name, nameEnded, draft, lastLine⟩ := s
  simp only at hs hd
  subst hs hd
  obtain ⟨hn, ht⟩ := hf.isIdentifier hname
  have hempty : Draft.empty.declaration ++ (f.name ++ ":" ++ f.typeName) =
      f.name ++ ":" ++ f.typeName := String.empty_append
  have hne : (f.name ++ ":" ++ f.typeName).isEmpty = false := by simp [hname]
  rw [withElements, Draft.addAll_eq _ _ hf.elements]
  refine chars_semicolon rfl rfl ?_ ?_
  · simp only [declare, Draft.startAt, Draft.isVoid, hempty, hne, Bool.false_and]
  · simp only [declare, Draft.startAt, Draft.toStatement, hempty, hne, Bool.false_eq_true,
      if_false, Draft.splitDeclaration_of_isIdentifier hn ht]
    rfl

end Scanner

namespace StatementForm

/-- The text is the statement, wherever it stands as a line of a body. -/
def IsReadFrom (f : StatementForm) (cs : List Char) : Prop :=
  ∀ (s : Scanner) (line : Nat), s.phase = .body → s.draft = .empty →
    s.chars line none cs = .ok (s, [f.toStatement line])

variable {f : StatementForm}

theorem isReadFrom_written (spelling : Element.Spelling) (hf : f.IsWellFormed) :
    f.IsReadFrom (f.written spelling) := by
  intro s line hs hd
  have hb : s.draft.block? = none := by rw [hd]; rfl
  rw [written, List.append_assoc]
  rcases hf.declares with ⟨hn, -⟩ | ⟨hname, htype, hne⟩
  · have hname : f.name ≠ "" := by
      intro h
      simp [h, Text.isIdentifier] at hn
    have hstart : (s.declare line (f.name ++ ":" ++ f.typeName)).draft.startLine? = some line := by
      simp [Scanner.declare, Draft.startAt, hd, Draft.empty]
    rw [Scanner.chars_writtenDeclaration hf hname hs hb,
      Scanner.chars_writtenBlock (s := s.declare line _) spelling hf hs hb fun _ => hstart]
    exact Scanner.chars_end_of_declared hf hname hs hd
  · obtain ⟨phase, name, nameEnded, draft, lastLine⟩ := s
    simp only at hs hd
    subst hs hd
    have hdeclaration : f.writtenDeclaration = [] := by simp [writtenDeclaration, hname]
    rw [hdeclaration, List.nil_append,
      Scanner.chars_writtenBlock spelling hf rfl rfl fun h => absurd h hne]
    rw [Scanner.withElements, Draft.addAll_eq _ _ hf.elements]
    refine Scanner.chars_semicolon rfl rfl ?_ ?_
    · obtain ⟨text, rest, hrest⟩ := List.exists_cons_of_ne_nil hne
      cases htag : Element.isTag text <;> simp [Draft.isVoid, hrest, htag]
    · rw [toStatement, hname, htype]
      rfl

def writtenInBraces (spelling : Element.Spelling) (f : StatementForm) : List Char :=
  f.writtenDeclaration ++
    '\x7b' :: ' ' :: (Element.writtenAll spelling f.elements ++ [' ', '\x7d', ' ', ';'])

theorem isReadFrom_writtenInBraces (spelling : Element.Spelling) (hf : f.IsWellFormed)
    (hname : f.name ≠ "") : f.IsReadFrom (f.writtenInBraces spelling) := by
  intro s line hs hd
  have hb : s.draft.block? = none := by rw [hd]; rfl
  rw [writtenInBraces, Scanner.chars_writtenDeclaration hf hname hs hb,
    Scanner.chars_block (s := s.declare line _) spelling hs hb hf.elements,
    Scanner.chars_layout (by simpa using hs) (by decide)]
  exact Scanner.chars_end_of_declared hf hname hs hd

end StatementForm

end EntityModel
