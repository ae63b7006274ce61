import EntityModel.Proofs.Statement.ParseTree

/-!
# Parsing

A text is a definition if and only if it has a well-formed parse tree, and the definition is then
that of the tree. One equation for each class of tokens says what a token does to the draft of the
body; the tree is read off an accepted run, and a run off the tree, by these equations.
-/

namespace EntityModel

def Draft.gathered (declaration : List Char) (elements : List Element) (start? : Option Nat) :
    Draft where
  declaration := String.ofList declaration
  annotations := elements.filter fun e => !Element.isTagText e.text
  tags := elements.filter fun e => Element.isTagText e.text
  startLine? := start?
  block? := none

namespace Scanner

def body (name : String) (nameEnded : Bool) (d : Draft) : Scanner := ⟨.body, name, nameEnded, d, 0⟩

variable {s next : Scanner} {open? : Option Char} {t : Token} {ts : List Token} {D : Definition}

theorem onLine_lastLine (s : Scanner) (last line : Nat) (isSpaced : Bool) :
    { s with lastLine := last }.onLine line isSpaced = s.onLine line isSpaced := by
  cases isSpaced with
  | false => rfl
  | true =>
      simp only [onLine, if_true, endName]
      split <;> rfl

theorem readTokens_lastLine (s : Scanner) (line : Nat) (open? : Option Char) (ts : List Token) :
    { s with lastLine := line }.readTokens open? ts = s.readTokens open? ts := by
  cases ts with
  | nil => rfl
  | cons t ts => simp only [readTokens, onLine_lastLine]

theorem readTokens_char {statement? : Option Statement} (hl : Text.isLayout t.char = false)
    (h : (s.onLine t.line t.isSpaced).char t.line t.char = .ok (next, statement?))
    (ts : List Token) :
    s.readTokens none (t :: ts) =
      (next.readTokens (Text.quoteAfter none t.char) ts).map
        (Definition.prepend statement?.toList) := by
  simp only [readTokens, Option.isSome_none, Bool.false_eq_true, if_false, hl, h]

theorem readTokens_char_none (hl : Text.isLayout t.char = false)
    (h : (s.onLine t.line t.isSpaced).char t.line t.char = .ok (next, none)) (ts : List Token) :
    s.readTokens none (t :: ts) = next.readTokens (Text.quoteAfter none t.char) ts := by
  rw [readTokens_char hl h]
  cases next.readTokens (Text.quoteAfter none t.char) ts <;> rfl

theorem readTokens_fault {fault : SyntaxFault}
    (h : (s.onLine t.line t.isSpaced).char t.line t.char = .error fault) (ts : List Token) :
    s.readTokens none (t :: ts) = none := by
  simp [readTokens, h]

theorem readTokens_closed (hs : s.phase = .closed) :
    s.readTokens none ts = some D ↔ ts = [] ∧ D = ⟨s.declaredName?, []⟩ := by
  cases ts with
  | nil => simp [readTokens, hs, eq_comm]
  | cons t ts =>
      have hchar : (s.onLine t.line t.isSpaced).char t.line t.char =
          .error (.afterBody t.char) := by
        simp only [char, phase_onLine, hs]
      simp [readTokens_fault hchar]

section Body

variable {name : String} {ended : Bool} {d : Draft}

theorem onLine_body (line : Nat) (isSpaced : Bool) :
    (body name ended d).onLine line isSpaced = { body name ended d with lastLine := line } := by
  cases isSpaced <;> rfl

theorem char_body (hd : d.block? = none) (line : Nat) (isSpaced : Bool) (c : Char) :
    ((body name ended d).onLine line isSpaced).char line c =
      { body name ended d with lastLine := line }.bodyChar line c := by
  rw [onLine_body, char_outside_block rfl hd]

theorem readTokens_semicolon_void (hd : d.block? = none) (hv : d.isVoid = true)
    (ht : t.char = ';') :
    (body name ended d).readTokens none (t :: ts) = (body name ended d).readTokens none ts := by
  have hchar : ((body name ended d).onLine t.line t.isSpaced).char t.line t.char =
      .ok ({ body name ended d with lastLine := t.line }, none) := by
    rw [char_body hd, ht, bodyChar]
    simp [body, hv]
  rw [readTokens_char_none (by rw [ht]; decide) hchar, readTokens_lastLine, ht]
  rfl

theorem readTokens_semicolon {statement : Statement} (hd : d.block? = none)
    (hv : d.isVoid = false) (ht : t.char = ';') (hs : d.toStatement t.line = .ok statement) :
    (body name ended d).readTokens none (t :: ts) =
      ((body name ended .empty).readTokens none ts).map (Definition.prepend [statement]) := by
  have hchar : ((body name ended d).onLine t.line t.isSpaced).char t.line t.char =
      .ok ({ body name ended .empty with lastLine := t.line }, some statement) := by
    rw [char_body hd, ht, bodyChar]
    simp only [body, hv, hs, Bool.false_eq_true, if_false]
    rfl
  rw [readTokens_char (by rw [ht]; decide) hchar, readTokens_lastLine, ht]
  rfl

theorem readTokens_semicolon_fault {fault : SyntaxFault} (hd : d.block? = none)
    (hv : d.isVoid = false) (ht : t.char = ';') (hs : d.toStatement t.line = .error fault) :
    (body name ended d).readTokens none (t :: ts) = none := by
  have hchar : ((body name ended d).onLine t.line t.isSpaced).char t.line t.char =
      .error fault := by
    rw [char_body hd, ht, bodyChar]
    simp only [body, hv, hs, Bool.false_eq_true, if_false]
    rfl
  exact readTokens_fault hchar ts

theorem readTokens_opening (hd : d.block? = none) (ht : t.char = '\x7b') :
    (body name ended d).readTokens none (t :: ts) =
      (body name ended (d.openBlock t.line)).readTokens none ts := by
  have hchar : ((body name ended d).onLine t.line t.isSpaced).char t.line t.char =
      .ok ({ body name ended (d.openBlock t.line) with lastLine := t.line }, none) := by
    rw [char_body hd, ht, bodyChar]
    rfl
  rw [readTokens_char_none (by rw [ht]; decide) hchar, readTokens_lastLine, ht]
  rfl

theorem readTokens_closing (hd : d.block? = none) (ht : t.char = '\x7d') :
    (body name ended d).readTokens none (t :: ts) = some D ↔
      d.isVoid = true ∧ ts = [] ∧ D = ⟨(body name ended d).declaredName?, []⟩ := by
  cases hv : d.isVoid with
  | true =>
      have hchar : ((body name ended d).onLine t.line t.isSpaced).char t.line t.char =
          .ok ({ body name ended d with phase := .closed, lastLine := t.line }, none) := by
        rw [char_body hd, ht, bodyChar]
        simp [body, hv]
      have hquote : Text.quoteAfter none '\x7d' = none := rfl
      rw [readTokens_char_none (by rw [ht]; decide) hchar, ht, hquote, readTokens_closed rfl]
      simp only [true_and]
      rfl
  | false =>
      have hchar : ((body name ended d).onLine t.line t.isSpaced).char t.line t.char =
          .error .unfinishedStatement := by
        rw [char_body hd, ht, bodyChar]
        simp [body, hv]
      simp [readTokens_fault hchar]

theorem readTokens_quote (hd : d.block? = none) (ht : t.char = '\'' ∨ t.char = '"') :
    (body name ended d).readTokens none (t :: ts) = none := by
  rcases ht with ht | ht
  · have hchar : ((body name ended d).onLine t.line t.isSpaced).char t.line t.char =
        .error .unexpectedSingleQuote := by rw [char_body hd, ht, bodyChar]
    exact readTokens_fault hchar ts
  · have hchar : ((body name ended d).onLine t.line t.isSpaced).char t.line t.char =
        .error .unexpectedDoubleQuote := by rw [char_body hd, ht, bodyChar]
    exact readTokens_fault hchar ts

theorem readTokens_plain (hd : d.block? = none) (ht : t.IsPlain) :
    (body name ended d).readTokens none (t :: ts) =
      (body name ended
        { d.startAt t.line with declaration := d.declaration.push t.char }).readTokens none ts := by
  have hquote := ht.quoteAfter_eq_none
  obtain ⟨hl, hsemicolon, hopening, hclosing, hsingle, hdouble⟩ := ht
  have hchar : ((body name ended d).onLine t.line t.isSpaced).char t.line t.char =
      .ok ({ body name ended { d.startAt t.line with declaration := d.declaration.push t.char } with
        lastLine := t.line }, none) := by
    rw [char_body hd, bodyChar]
    · rfl
    all_goals assumption
  rw [readTokens_char_none hl hchar, readTokens_lastLine, hquote]

variable {b : Block} {n : Nesting}

private theorem readTokens_block {d' : Draft} (hl : Text.isLayout t.char = false)
    (h : blockChar { d with block? := some b } b t.line t.char = .ok d') :
    (body name ended { d with block? := some b }).readTokens none (t :: ts) =
      (body name ended d').readTokens (Text.quoteAfter none t.char) ts := by
  have hchar : ((body name ended { d with block? := some b }).onLine t.line t.isSpaced).char t.line
      t.char = .ok ({ body name ended d' with lastLine := t.line }, none) := by
    rw [onLine_body]
    exact char_setBlock (s := { body name ended d with lastLine := t.line }) rfl h
  rw [readTokens_char_none hl hchar, readTokens_lastLine]

theorem readTokens_extend {next : Nesting} (hdepth : b.depth = n.depth)
    (h : n.after? t.char = some next) :
    (body name ended { d with block? := some b }).readTokens n.quote? (t :: ts) =
      (body name ended
        { d with block? := some { b.push t.line t.char with depth := next.depth } }).readTokens
          next.quote? ts := by
  cases hq : n.quote? with
  | some q =>
      have hchar := Nesting.ne_newline_of_after? h
      have hnext : next = { n with quote? := Text.quoteAfter (some q) t.char } := by
        simpa [Nesting.after?, hq, hchar, eq_comm] using h
      have hpush : { b.push t.line t.char with depth := n.depth } = b.push t.line t.char := by
        rw [← hdepth]
        rfl
      subst hnext
      rw [readTokens, if_pos (by simp), if_neg hchar, onLine_body, hpush]
      exact readTokens_lastLine (body name ended { d with block? := some (b.push t.line t.char) })
        t.line _ ts
  | none =>
      rw [readTokens_block (Nesting.not_isLayout_of_after? hq h) (blockChar_of_after? hdepth hq h),
        Nesting.quote?_of_after? h, hq]

theorem addElement_withBlock (d : Draft) (b : Block) (b?  b'? : Option Block) :
    { ({ d with block? := b? } : Draft).addElement b with block? := b'? } =
      { d.addElement b with block? := b'? } := by
  simp only [Draft.addElement]
  split
  · rfl
  · split <;> rfl

theorem blockChar_separator {line : Nat} {c : Char} (hdepth : b.depth = 0)
    (hc : c = ',' ∨ c = ';') :
    blockChar { d with block? := some b } b line c =
      .ok { d.addElement b with block? := some { b with element := "" } } := by
  rcases hc with rfl | rfl
  all_goals rw [blockChar, if_pos hdepth, addElement_withBlock]

theorem blockChar_closing {line : Nat} (hdepth : b.depth = 0) :
    blockChar { d with block? := some b } b line '\x7d' =
      .ok { d.addElement b with block? := none } := by
  rw [blockChar, if_pos hdepth, addElement_withBlock]

theorem readTokens_separator (hdepth : b.depth = 0) (ht : t.char = ',' ∨ t.char = ';') :
    (body name ended { d with block? := some b }).readTokens none (t :: ts) =
      (body name ended { d.addElement b with block? := some { b with element := "" } }).readTokens
        none ts := by
  have hl : Text.isLayout t.char = false := by rcases ht with ht | ht <;> rw [ht] <;> decide
  have hquote : Text.quoteAfter none t.char = none := by
    rcases ht with ht | ht <;> rw [ht] <;> rfl
  rw [readTokens_block hl (blockChar_separator hdepth ht), hquote]

theorem readTokens_blockClosing (hdepth : b.depth = 0) (ht : t.char = '\x7d') :
    (body name ended { d with block? := some b }).readTokens none (t :: ts) =
      (body name ended { d.addElement b with block? := none }).readTokens none ts := by
  have hchar : blockChar { d with block? := some b } b t.line t.char =
      .ok { d.addElement b with block? := none } := ht ▸ blockChar_closing hdepth
  rw [readTokens_block (by rw [ht]; decide) hchar, ht]
  rfl

theorem cases_of_blockChar {d' : Draft} {line : Nat} {c : Char}
    (hl : Text.isLayout c = false) (h : blockChar d b line c = .ok d') :
    (∃ next, Nesting.after? ⟨b.depth, none⟩ c = some next) ∨
      b.depth = 0 ∧ (c = ',' ∨ c = ';' ∨ c = '\x7d') := by
  by_cases hstop : b.depth = 0 ∧ (c = ',' ∨ c = ';' ∨ c = '\x7d')
  · exact .inr hstop
  · refine .inl ?_
    unfold blockChar at h
    unfold Nesting.after?
    split at h <;> simp_all
    intro hzero
    simp [hzero] at h

theorem exists_of_readTokens_block (hdepth : b.depth = n.depth)
    (h : (body name ended { d with block? := some b }).readTokens n.quote? (t :: ts) = some D) :
    (∃ next, n.after? t.char = some next) ∨
      n = .outside ∧ (t.char = ',' ∨ t.char = ';' ∨ t.char = '\x7d') := by
  obtain ⟨depth, quote?⟩ := n
  obtain rfl : b.depth = depth := hdepth
  cases quote? with
  | some q =>
      by_cases hc : t.char = '\n'
      · simp [readTokens, hc] at h
      · simp [Nesting.after?, hc]
  | none =>
      cases hl : Text.isLayout t.char with
      | true => simp [readTokens, hl] at h
      | false =>
          cases hchar : blockChar { d with block? := some b } b t.line t.char with
          | error fault =>
              have hfault : ((body name ended { d with block? := some b }).onLine t.line
                  t.isSpaced).char t.line t.char = .error fault := by
                rw [onLine_body]
                simp only [char, body, hchar]
                rfl
              rw [readTokens_fault hfault] at h
              cases h
          | ok d' =>
              refine (cases_of_blockChar hl hchar).imp id ?_
              rintro ⟨hzero, hc⟩
              rw [hzero]
              exact ⟨rfl, hc⟩

end Body

end Scanner

/-- The element being read consists of the tokens, at the end of which the nesting is as given. -/
structure Block.Holds (b : Block) (entry : List Token) (n : Nesting) : Prop where
  element : b.element = String.ofList (Token.chars entry)
  line : ∀ t ∈ entry.head?, b.elementLine = t.line
  depth : b.depth = n.depth
  nesting : Nesting.outside.afterAll? (Token.chars entry) = some n

namespace Block.Holds

variable {b : Block} {entry : List Token} {n next : Nesting} {t : Token}

theorem empty (elementLine : Nat) : Block.Holds ⟨"", elementLine, 0⟩ [] .outside :=
  ⟨rfl, by simp, rfl, rfl⟩

theorem afterSeparator (h : b.Holds entry .outside) :
    Block.Holds { b with element := "" } [] .outside :=
  ⟨rfl, by simp, h.depth, rfl⟩

theorem push (h : b.Holds entry n) (hnext : n.after? t.char = some next) :
    Block.Holds { b.push t.line t.char with depth := next.depth } (entry ++ [t]) next := by
  refine ⟨?_, ?_, rfl, ?_⟩
  · rw [Token.chars_append, Token.chars_cons, Token.chars_nil]
    simp [Block.push, h.element, ← String.toList_inj]
  · cases entry with
    | nil => simp [Block.push, h.element]
    | cons u entry =>
        have hline := h.line u rfl
        simpa [Block.push, h.element] using hline
  · rw [Token.chars_append, Nesting.afterAll?_append h.nesting, Token.chars_cons,
      Token.chars_nil, Nesting.afterAll?_cons hnext, Nesting.afterAll?_nil]

theorem addElement (h : b.Holds entry n) (declaration : List Char) (elements : List Element)
    (start? : Option Nat) :
    (Draft.gathered declaration elements start?).addElement b =
      .gathered declaration (elements ++ (Element.ofTokens? entry).toList) start? := by
  cases entry with
  | nil => simp [Draft.addElement, h.element, Element.ofTokens?]
  | cons t entry =>
      have hline : b.elementLine = t.line := h.line t rfl
      have hne : b.element.isEmpty = false := by simp [h.element]
      rw [Draft.addElement, hne]
      rw [h.element, hline]
      cases htag : Element.isTagText (String.ofList (Token.chars (t :: entry))) with
      | true => simp [Draft.gathered, Element.ofTokens?, -Token.chars_cons, htag]
      | false => simp [Draft.gathered, Element.ofTokens?, -Token.chars_cons, htag]

end Block.Holds

namespace Scanner

variable {name : String} {ended : Bool} {declaration : List Char} {elements : List Element}
  {start? : Option Nat} {b : Block} {n : Nesting} {entry ts : List Token} {D : Definition}

def withinBlock (name : String) (ended : Bool) (declaration : List Char) (elements : List Element)
    (start? : Option Nat) (b : Block) : Scanner :=
  body name ended { Draft.gathered declaration elements start? with block? := some b }

theorem readTokens_entry (hb : b.Holds entry n) {us : List Token}
    (hus : n.afterAll? (Token.chars us) = some .outside) (ts : List Token) :
    ∃ b' : Block, b'.Holds (entry ++ us) .outside ∧
      (withinBlock name ended declaration elements start? b).readTokens n.quote? (us ++ ts) =
        (withinBlock name ended declaration elements start? b').readTokens none ts := by
  induction us generalizing b entry n with
  | nil =>
      obtain rfl : n = .outside := Option.some.inj hus
      exact ⟨b, by simpa using hb, rfl⟩
  | cons t us ih =>
      obtain ⟨next, hnext, hrest⟩ := Nesting.afterAll?_cons_eq_some.1 hus
      obtain ⟨b', hb', hread⟩ := ih (hb.push hnext) hrest
      refine ⟨b', by simpa using hb', ?_⟩
      rw [List.cons_append, withinBlock, readTokens_extend hb.depth hnext]
      exact hread

theorem readTokens_entries (elements : List Element) (hb : b.Holds [] .outside)
    {entries : List (List Token × Token)} {last : List Token} {closing : Token}
    (hentries : ∀ e ∈ entries, Token.IsEntry e.1 ∧ (e.2.char = ',' ∨ e.2.char = ';'))
    (hlast : Token.IsEntry last) (hclosing : closing.char = '\x7d') (ts : List Token) :
    (withinBlock name ended declaration elements start? b).readTokens none
        ((entries.flatMap fun (entry, separator) => entry ++ [separator]) ++
          (last ++ closing :: ts)) =
      (body name ended (.gathered declaration
        (elements ++ ((entries.flatMap fun (entry, _) => (Element.ofTokens? entry).toList) ++
          (Element.ofTokens? last).toList)) start?)).readTokens none ts := by
  induction entries generalizing b elements with
  | nil =>
      obtain ⟨b', hb', hread⟩ := readTokens_entry hb hlast (closing :: ts)
      refine hread.trans ?_
      rw [withinBlock, readTokens_blockClosing hb'.depth hclosing, hb'.addElement]
      rfl
  | cons e entries ih =>
      obtain ⟨⟨he, hseparator⟩, hrest⟩ := List.forall_mem_cons.1 hentries
      obtain ⟨b', hb', hread⟩ := readTokens_entry hb he
        (e.2 :: ((entries.flatMap fun (entry, separator) => entry ++ [separator]) ++
          (last ++ closing :: ts)))
      have hnext := ih (elements ++ (Element.ofTokens? e.1).toList) hb'.afterSeparator hrest
      simp only [List.flatMap_cons, List.append_assoc, List.cons_append, List.nil_append]
        at hread hnext ⊢
      refine hread.trans ?_
      rw [withinBlock, readTokens_separator hb'.depth hseparator, hb'.addElement]
      exact hnext

theorem exists_entries (hb : b.Holds entry n)
    (h : (withinBlock name ended declaration elements start? b).readTokens n.quote? ts = some D) :
    ∃ (entries : List (List Token × Token)) (last : List Token) (closing : Token)
      (rest : List Token),
      entry ++ ts = (entries.flatMap fun (entry, separator) => entry ++ [separator]) ++
        (last ++ closing :: rest) ∧
      (∀ e ∈ entries, Token.IsEntry e.1 ∧ (e.2.char = ',' ∨ e.2.char = ';')) ∧
      Token.IsEntry last ∧ closing.char = '\x7d' ∧ rest.length < ts.length ∧
      (body name ended (.gathered declaration
        (elements ++ ((entries.flatMap fun (entry, _) => (Element.ofTokens? entry).toList) ++
          (Element.ofTokens? last).toList)) start?)).readTokens none rest = some D := by
  -- `entry` is the part of the current entry that has been read
  induction ts generalizing b elements entry n with
  | nil => simp [readTokens, withinBlock, body] at h
  | cons t ts ih =>
      rcases exists_of_readTokens_block hb.depth h with ⟨next, hnext⟩ | ⟨rfl, hstop⟩
      · rw [withinBlock, readTokens_extend hb.depth hnext] at h
        obtain ⟨entries, last, closing, rest, htokens, hentries, hlast, hclosing, hlength, hread⟩ :=
          ih (hb.push hnext) h
        refine ⟨entries, last, closing, rest, ?_, hentries, hlast, hclosing, ?_, hread⟩
        · rw [← htokens, List.append_assoc]
          rfl
        · exact Nat.lt_succ_of_lt hlength
      have hentry : Token.IsEntry entry := hb.nesting
      rcases or_assoc.2 hstop with hseparator | hclosing
      · have hquote : Nesting.outside.quote? = none := rfl
        rw [hquote, withinBlock, readTokens_separator hb.depth hseparator, hb.addElement] at h
        obtain ⟨entries, last, closing, rest, htokens, hentries, hlast, hclosing, hlength, hread⟩ :=
          ih hb.afterSeparator h
        refine ⟨(entry, t) :: entries, last, closing, rest, ?_, ?_, hlast, hclosing, ?_, ?_⟩
        · simpa using htokens
        · exact List.forall_mem_cons.2 ⟨⟨hentry, hseparator⟩, hentries⟩
        · exact Nat.lt_succ_of_lt hlength
        · simpa using hread
      · have hquote : Nesting.outside.quote? = none := rfl
        rw [hquote, withinBlock, readTokens_blockClosing hb.depth hclosing, hb.addElement] at h
        exact ⟨[], entry, t, ts, rfl, by simp, hentry, hclosing, Nat.lt_succ_self _, h⟩

end Scanner

namespace Draft

variable {start? : Option Nat} {parts : List Part}

/-- The draft of a clause of which the parts have been read; `start?` is the line on which it
started before them. -/
def ofParts (start? : Option Nat) (parts : List Part) : Draft :=
  gathered (parts.flatMap Part.declaration) (parts.flatMap Part.elements)
    (start?.or (parts.head?.map Part.line))

theorem isVoid_ofParts : (ofParts start? parts).isVoid = true ↔
    parts.flatMap Part.declaration = [] ∧ parts.flatMap Part.elements = [] := by
  have hfilters (elements : List Element) :
      (elements.filter fun e => !Element.isTagText e.text) = [] ∧
        (elements.filter fun e => Element.isTagText e.text) = [] ↔ elements = [] := by
    constructor
    · rintro ⟨hannotations, htags⟩
      refine List.eq_nil_iff_forall_not_mem.2 fun e he => ?_
      have hnot := List.filter_eq_nil_iff.1 hannotations e he
      have htag := List.filter_eq_nil_iff.1 htags e he
      simp_all
    · rintro rfl
      exact ⟨rfl, rfl⟩
  rw [← hfilters]
  simp only [isVoid, ofParts, gathered, Bool.and_eq_true, List.isEmpty_iff, Option.isNone_none,
    String.isEmpty_iff, String.ofList_eq_empty_iff, and_true, and_assoc]

theorem startLine_concat (start? : Option Nat) (parts : List Part) (p : Part) :
    some ((start?.or (parts.head?.map Part.line)).getD p.line) =
      start?.or ((parts ++ [p]).head?.map Part.line) := by
  cases start? <;> cases parts <;> simp

theorem ofParts_declared (start? : Option Nat) (parts : List Part) (t : Token) :
    { (ofParts start? parts).startAt t.line with
      declaration := (ofParts start? parts).declaration.push t.char } =
        ofParts start? (parts ++ [.declared t]) := by
  have hstart := startLine_concat start? parts (.declared t)
  rw [ofParts, ofParts, ← hstart]
  simp [gathered, startAt, Part.declaration, Part.elements, Part.line]

theorem splitDeclaration_eq_ok_iff {cs : List Char} {declared : String × String} :
    splitDeclaration (String.ofList cs) = .ok declared ↔
      (Text.isIdentifier (cs.takeWhile (· != ':')) = true ∧
        Text.isIdentifier (cs.dropWhile (· != ':')).tail = true) ∧
        (String.ofList (cs.takeWhile (· != ':')), String.ofList (cs.dropWhile (· != ':')).tail) =
          declared := by
  rw [splitDeclaration, String.toList_ofList]
  cases cs.dropWhile (· != ':') with
  | nil => simp [Text.isIdentifier]
  | cons colon typeName =>
      cases hname : Text.isIdentifier (cs.takeWhile (· != ':')) with
      | false => simp [hname]
      | true =>
          cases htype : Text.isIdentifier typeName with
          | false => simp [hname, htype]
          | true => simp [hname, htype]

/-- A clause makes a statement if and only if it declares nothing or a name with a type. -/
theorem toStatement_ofParts {c : Clause} {s : Statement} :
    (ofParts start? c.parts).toStatement c.semicolon.line = .ok s ↔
      (c.declaration = [] ∨ Text.isIdentifier c.name = true ∧ Text.isIdentifier c.typeName = true) ∧
        c.statement ((start?.or c.line?).getD c.semicolon.line) = s := by
  have hdeclaration : (ofParts start? c.parts).declaration = String.ofList c.declaration := rfl
  have hstatement (declared : String × String)
      (h : (String.ofList c.name, String.ofList c.typeName) = declared) :
      (⟨declared.1, declared.2, (ofParts start? c.parts).annotations,
        (ofParts start? c.parts).tags,
        (ofParts start? c.parts).startLine?.getD c.semicolon.line⟩ : Statement) =
      c.statement ((start?.or c.line?).getD c.semicolon.line) := by
    rw [← h]
    rfl
  rw [toStatement, hdeclaration]
  by_cases hempty : c.declaration = []
  · have hnothing : (String.ofList c.name, String.ofList c.typeName) = ("", "") := by
      simp [Clause.name, Clause.typeName, hempty]
    rw [← hstatement ("", "") hnothing, hempty]
    simp [pure, Except.pure, bind, Except.bind]
  · have hne : (String.ofList c.declaration).isEmpty = false := by simpa using hempty
    rw [hne]
    cases hsplit : splitDeclaration (String.ofList c.declaration) with
    | error fault =>
        have hnot : ¬(Text.isIdentifier c.name = true ∧ Text.isIdentifier c.typeName = true) :=
          fun h => by
            have hok := splitDeclaration_eq_ok_iff.2 ⟨h, rfl⟩
            rw [hsplit] at hok
            cases hok
        simp [bind, Except.bind, hempty, hnot]
    | ok declared =>
        obtain ⟨hidentifiers, hdeclared⟩ := splitDeclaration_eq_ok_iff.1 hsplit
        rw [← hstatement declared hdeclared]
        exact ⟨fun h => ⟨.inr hidentifiers, Except.ok.inj h⟩, fun h => congrArg Except.ok h.2⟩

end Draft

namespace Scanner

variable {name : String} {ended : Bool} {start? : Option Nat} {parts qs : List Part}
  {ts : List Token} {D : Definition}

def withinClause (name : String) (ended : Bool) (start? : Option Nat) (parts : List Part) :
    Scanner :=
  body name ended (.ofParts start? parts)

theorem readTokens_declared {t : Token} (ht : t.IsPlain) (ts : List Token) :
    (withinClause name ended start? parts).readTokens none (t :: ts) =
      (withinClause name ended start? (parts ++ [.declared t])).readTokens none ts := by
  rw [withinClause, readTokens_plain rfl ht, Draft.ofParts_declared]
  rfl

theorem readTokens_blockOpening {t : Token} (ht : t.char = '\x7b') (ts : List Token) :
    (withinClause name ended start? parts).readTokens none (t :: ts) =
      (withinBlock name ended (parts.flatMap Part.declaration) (parts.flatMap Part.elements)
        (some ((start?.or (parts.head?.map Part.line)).getD t.line)) ⟨"", 0, 0⟩).readTokens none
          ts := by
  rw [withinClause, readTokens_opening rfl ht]
  rfl

theorem body_gathered_block {opening : Token} {entries : List (List Token × Token)}
    {last : List Token} (closing : Token) :
    body name ended (.gathered (parts.flatMap Part.declaration)
        (parts.flatMap Part.elements ++
          ((entries.flatMap fun (entry, _) => (Element.ofTokens? entry).toList) ++
            (Element.ofTokens? last).toList))
        (some ((start?.or (parts.head?.map Part.line)).getD opening.line))) =
      withinClause name ended start? (parts ++ [.block opening entries last closing]) := by
  have hstart := Draft.startLine_concat start? parts (.block opening entries last closing)
  rw [withinClause, Draft.ofParts, ← hstart]
  simp [Part.declaration, Part.elements, Part.line]

theorem readTokens_part {p : Part} (hp : p.IsWellFormed) (ts : List Token) :
    (withinClause name ended start? parts).readTokens none (p.tokens ++ ts) =
      (withinClause name ended start? (parts ++ [p])).readTokens none ts := by
  cases p with
  | declared t => exact readTokens_declared hp ts
  | block opening entries last closing =>
      obtain ⟨hopening, hentries, hlast, hclosing⟩ := hp
      simp only [Part.tokens, List.append_assoc, List.cons_append, List.nil_append]
      rw [readTokens_blockOpening hopening,
        readTokens_entries _ (Block.Holds.empty 0) hentries hlast hclosing, body_gathered_block]

theorem readTokens_parts (hqs : ∀ p ∈ qs, p.IsWellFormed) (ts : List Token) :
    (withinClause name ended start? parts).readTokens none (qs.flatMap Part.tokens ++ ts) =
      (withinClause name ended start? (parts ++ qs)).readTokens none ts := by
  induction qs generalizing parts with
  | nil => simp
  | cons p qs ih =>
      rw [List.forall_mem_cons] at hqs
      rw [List.flatMap_cons, List.append_assoc, readTokens_part hqs.1, ih hqs.2, List.append_assoc]
      rfl

theorem withinClause_of_void (hdeclaration : parts.flatMap Part.declaration = [])
    (helements : parts.flatMap Part.elements = []) :
    withinClause name ended start? parts =
      withinClause name ended (start?.or (parts.head?.map Part.line)) [] := by
  simp [withinClause, Draft.ofParts, hdeclaration, helements]

theorem readTokens_clause_void {c : Clause} (hc : c.IsWellFormed) (hv : c.IsVoid)
    (ts : List Token) :
    (withinClause name ended start? []).readTokens none (c.tokens ++ ts) =
      (withinClause name ended (start?.or c.line?) []).readTokens none ts := by
  rw [Clause.tokens, List.append_assoc, readTokens_parts hc.parts, List.nil_append,
    List.singleton_append, withinClause,
    readTokens_semicolon_void rfl (Draft.isVoid_ofParts.2 hv) hc.semicolon]
  exact congrArg (readTokens · none ts) (withinClause_of_void hv.1 hv.2)

theorem readTokens_clause {c : Clause} (hc : c.IsWellFormed) (hv : ¬ c.IsVoid)
    (ts : List Token) :
    (withinClause name ended start? []).readTokens none (c.tokens ++ ts) =
      ((withinClause name ended none []).readTokens none ts).map
        (Definition.prepend [c.statement ((start?.or c.line?).getD c.semicolon.line)]) := by
  have hvoid : (Draft.ofParts start? c.parts).isVoid = false := by
    rw [Bool.eq_false_iff]
    exact mt Draft.isVoid_ofParts.1 hv
  rw [Clause.tokens, List.append_assoc, readTokens_parts hc.parts, List.nil_append,
    List.singleton_append, withinClause,
    readTokens_semicolon rfl hvoid hc.semicolon (Draft.toStatement_ofParts.2 ⟨hc.declares, rfl⟩)]
  rfl

theorem readTokens_clauses {cs : List Clause} (hcs : ∀ c ∈ cs, c.IsWellFormed)
    (hts : ∀ start?, (withinClause name ended start? []).readTokens none ts = some D) :
    (withinClause name ended start? []).readTokens none (cs.flatMap Clause.tokens ++ ts) =
      some (D.prepend (Clause.statements start? cs)) := by
  induction cs generalizing start? with
  | nil => exact hts start?
  | cons c cs ih =>
      rw [List.forall_mem_cons] at hcs
      rw [List.flatMap_cons, List.append_assoc]
      by_cases hv : c.IsVoid
      · rw [readTokens_clause_void hcs.1 hv, ih hcs.2, Clause.statements, if_pos hv]
      · rw [readTokens_clause hcs.1 hv, ih hcs.2, Clause.statements, if_neg hv]
        rfl

theorem isPlain_of_ne {t : Token} (hl : Text.isLayout t.char = false)
    (hsemicolon : t.char ≠ ';') (hopening : t.char ≠ '\x7b') (hclosing : t.char ≠ '\x7d')
    (hquote : ¬(t.char = '\'' ∨ t.char = '"')) : t.IsPlain := by
  rw [not_or] at hquote
  exact ⟨hl, hsemicolon, hopening, hclosing, hquote.1, hquote.2⟩

private theorem readTokens_layout {s : Scanner} {t : Token} (hl : Text.isLayout t.char = true)
    (ts : List Token) : s.readTokens none (t :: ts) = none := by
  simp [readTokens, hl]

/-- A semicolon ends a clause that declares nothing or a name with a type. What the clause states
comes before what the tokens after it state. -/
theorem exists_of_semicolon {t : Token} (ht : t.char = ';')
    (h : (withinClause name ended start? parts).readTokens none (t :: ts) = some D) :
    let c : Clause := ⟨parts, t⟩
    (c.declaration = [] ∨ Text.isIdentifier c.name = true ∧ Text.isIdentifier c.typeName = true) ∧
      ∃ next? D', (withinClause name ended next? []).readTokens none ts = some D' ∧
        ∀ name? clauses, D' = ⟨name?, Clause.statements next? clauses⟩ →
          D = ⟨name?, Clause.statements start? (c :: clauses)⟩ := by
  intro c
  by_cases hv : c.IsVoid
  · rw [withinClause, readTokens_semicolon_void rfl (Draft.isVoid_ofParts.2 hv) ht] at h
    refine ⟨.inl hv.1, start?.or c.line?, D, ?_, fun name? clauses hD => ?_⟩
    · rw [← h]
      exact congrArg (readTokens · none ts) (withinClause_of_void hv.1 hv.2).symm
    · rw [hD, Clause.statements, if_pos hv]
  · have hvoid : (Draft.ofParts start? parts).isVoid = false := by
      rw [Bool.eq_false_iff]
      exact mt Draft.isVoid_ofParts.1 hv
    cases hstatement : (Draft.ofParts start? parts).toStatement t.line with
    | error fault =>
        rw [withinClause, readTokens_semicolon_fault rfl hvoid ht hstatement] at h
        cases h
    | ok statement =>
        obtain ⟨hdeclares, rfl⟩ := (Draft.toStatement_ofParts (c := c)).1 hstatement
        rw [withinClause, readTokens_semicolon rfl hvoid ht hstatement, Option.map_eq_some_iff] at h
        obtain ⟨D', hread, rfl⟩ := h
        refine ⟨hdeclares, none, D', hread, ?_⟩
        rintro name? clauses rfl
        rw [Clause.statements, if_neg hv]
        rfl

theorem exists_of_opening {t : Token} (ht : t.char = '\x7b')
    (h : (withinClause name ended start? parts).readTokens none (t :: ts) = some D) :
    ∃ (p : Part) (rest : List Token), p.IsWellFormed ∧ t :: ts = p.tokens ++ rest ∧
      rest.length < ts.length ∧
      (withinClause name ended start? (parts ++ [p])).readTokens none rest = some D := by
  rw [readTokens_blockOpening ht] at h
  obtain ⟨entries, last, closing, rest, htokens, hentries, hlast, hclosing, hlength, hread⟩ :=
    exists_entries (n := .outside) (Block.Holds.empty 0) h
  rw [body_gathered_block closing] at hread
  refine ⟨.block t entries last closing, rest, ⟨ht, hentries, hlast, hclosing⟩, ?_, hlength, hread⟩
  rw [List.nil_append] at htokens
  rw [htokens]
  simp [Part.tokens]

theorem exists_clauses (hparts : ∀ p ∈ parts, p.IsWellFormed)
    (h : (withinClause name ended start? parts).readTokens none ts = some D) :
    ∃ (clauses : List Clause) (rest : List Part) (closing : Token),
      parts.flatMap Part.tokens ++ ts =
        clauses.flatMap Clause.tokens ++ (rest.flatMap Part.tokens ++ [closing]) ∧
      (∀ c ∈ clauses, c.IsWellFormed) ∧
      (∀ p ∈ rest, p.IsWellFormed ∧ p.declaration = [] ∧ p.elements = []) ∧
      closing.char = '\x7d' ∧
      D = ⟨(body name ended .empty).declaredName?, Clause.statements start? clauses⟩ := by
  -- a block takes several tokens at once, so that the induction is on their number; `parts` are
  -- those of the current clause
  induction hlength : ts.length using Nat.strongRecOn generalizing ts parts start? D with
  | ind length ih =>
  subst hlength
  cases ts with
  | nil => simp [readTokens, withinClause, body] at h
  | cons t ts =>
      by_cases hl : Text.isLayout t.char = true
      · rw [readTokens_layout hl] at h
        cases h
      rw [Bool.not_eq_true] at hl
      by_cases hquote : t.char = '\'' ∨ t.char = '"'
      · rw [withinClause, readTokens_quote rfl hquote] at h
        cases h
      by_cases hclosing : t.char = '\x7d'
      · rw [withinClause, readTokens_closing rfl hclosing, Draft.isVoid_ofParts] at h
        obtain ⟨⟨hdeclaration, helements⟩, rfl, rfl⟩ := h
        refine ⟨[], parts, t, rfl, by simp, fun p hp => ?_, hclosing, rfl⟩
        exact ⟨hparts p hp, List.flatMap_eq_nil_iff.1 hdeclaration p hp,
          List.flatMap_eq_nil_iff.1 helements p hp⟩
      by_cases hsemicolon : t.char = ';'
      · obtain ⟨hdeclares, next?, D', hread, hstates⟩ := exists_of_semicolon hsemicolon h
        have hclause : Clause.IsWellFormed ⟨parts, t⟩ := ⟨hparts, hdeclares, hsemicolon⟩
        obtain ⟨clauses, rest, closing, htokens, hclauses, hrest, hclosing, hD⟩ :=
          ih ts.length (Nat.lt_succ_self _) (by simp) hread rfl
        refine ⟨⟨parts, t⟩ :: clauses, rest, closing, ?_, ?_, hrest, hclosing, hstates _ _ hD⟩
        · rw [List.flatMap_nil, List.nil_append] at htokens
          simp [Clause.tokens, ← htokens]
        · exact List.forall_mem_cons.2 ⟨hclause, hclauses⟩
      by_cases hopening : t.char = '\x7b'
      · obtain ⟨p, rest, hp, htokens, hlength, hread⟩ := exists_of_opening hopening h
        obtain ⟨clauses, rest, closing, hmore, hrest⟩ := ih rest.length
          (Nat.lt_succ_of_lt hlength)
          (List.forall_mem_append.2 ⟨hparts, List.forall_mem_singleton.2 hp⟩) hread rfl
        refine ⟨clauses, rest, closing, ?_, hrest⟩
        rw [← hmore, htokens]
        simp
      · have ht : t.IsPlain := isPlain_of_ne hl hsemicolon hopening hclosing hquote
        have hp : (Part.declared t).IsWellFormed := ht
        rw [readTokens_declared ht] at h
        obtain ⟨clauses, rest, closing, htokens, hrest⟩ := ih ts.length (Nat.lt_succ_self _)
          (List.forall_mem_append.2 ⟨hparts, List.forall_mem_singleton.2 hp⟩) h rfl
        refine ⟨clauses, rest, closing, ?_, hrest⟩
        rw [← htokens]
        simp [Part.tokens]

def withinName (us : List Token) : Scanner :=
  ⟨.preamble, String.ofList (Token.chars us), false, .empty, 0⟩

variable {us : List Token} {t : Token}

theorem char_withinName (us : List Token) (t : Token) :
    ((withinName us).onLine t.line t.isSpaced).char t.line t.char =
      ({ withinName us with
          nameEnded := t.isSpaced && !us.isEmpty, lastLine := t.line }.preambleChar t.char).map
        fun next => (next, none) := by
  have honLine : (withinName us).onLine t.line t.isSpaced =
      { withinName us with nameEnded := t.isSpaced && !us.isEmpty, lastLine := t.line } := by
    cases t.isSpaced with
    | false => rfl
    | true => cases us <;> simp [onLine, endName, withinName]
  rw [honLine]
  simp only [char, withinName]
  cases preambleChar _ t.char <;> rfl

theorem readTokens_nameChar (ht : t.IsPlain) (hs : us = [] ∨ t.isSpaced = false)
    (ts : List Token) :
    (withinName us).readTokens none (t :: ts) = (withinName (us ++ [t])).readTokens none ts := by
  have hquote := ht.quoteAfter_eq_none
  obtain ⟨hl, hsemicolon, hopening, hclosing, hsingle, hdouble⟩ := ht
  have hended : (t.isSpaced && !us.isEmpty) = false := by
    rcases hs with rfl | hs
    · simp
    · simp [hs]
  have hname : (String.ofList (Token.chars us)).push t.char =
      String.ofList (Token.chars (us ++ [t])) := by
    simp
  have hchar : ((withinName us).onLine t.line t.isSpaced).char t.line t.char =
      .ok ({ withinName (us ++ [t]) with lastLine := t.line }, none) := by
    rw [char_withinName, hended, preambleChar]
    · simp only [Bool.false_eq_true, if_false, Except.map, withinName, ← hname]
    all_goals assumption
  rw [readTokens_char_none hl hchar, readTokens_lastLine, hquote]

theorem readTokens_nameChar_spaced (ht : t.IsPlain) (hus : us ≠ []) (hs : t.isSpaced = true)
    (ts : List Token) : (withinName us).readTokens none (t :: ts) = none := by
  obtain ⟨hl, hsemicolon, hopening, hclosing, hsingle, hdouble⟩ := ht
  have hchar : ((withinName us).onLine t.line t.isSpaced).char t.line t.char =
      .error (.afterName t.char (String.ofList (Token.chars us))) := by
    rw [char_withinName, preambleChar]
    · simp [hs, hus, withinName, Except.map]
    all_goals assumption
  exact readTokens_fault hchar ts

theorem readTokens_bodyOpening (us : List Token) (ht : t.char = '\x7b') (ts : List Token) :
    ∃ ended, (withinName us).readTokens none (t :: ts) =
      (withinClause (String.ofList (Token.chars us)) ended none []).readTokens none ts := by
  refine ⟨t.isSpaced && !us.isEmpty, ?_⟩
  have hchar : ((withinName us).onLine t.line t.isSpaced).char t.line t.char =
      .ok ({ withinClause (String.ofList (Token.chars us)) (t.isSpaced && !us.isEmpty) none [] with
        lastLine := t.line }, none) := by
    rw [char_withinName, ht, preambleChar]
    rfl
  rw [readTokens_char_none (by rw [ht]; decide) hchar, readTokens_lastLine, ht]
  rfl

theorem readTokens_nameStop (ht : t.char = ';' ∨ t.char = '\x7d' ∨ t.char = '\'' ∨ t.char = '"')
    (ts : List Token) : (withinName us).readTokens none (t :: ts) = none := by
  obtain ⟨fault, hfault⟩ : ∃ fault,
      ((withinName us).onLine t.line t.isSpaced).char t.line t.char = .error fault := by
    rw [char_withinName]
    rcases ht with ht | ht | ht | ht
    all_goals
      rw [ht, preambleChar]
      exact ⟨_, rfl⟩
  exact readTokens_fault hfault ts

theorem readTokens_name (us : List Token) {name : List Token} (hname : ∀ t ∈ name, t.IsPlain)
    (hspaced : ∀ t ∈ (us ++ name).tail, t.isSpaced = false) (ts : List Token) :
    (withinName us).readTokens none (name ++ ts) =
      (withinName (us ++ name)).readTokens none ts := by
  induction name generalizing us with
  | nil => simp
  | cons t name ih =>
      rw [List.forall_mem_cons] at hname
      have ht : us = [] ∨ t.isSpaced = false := by
        cases us with
        | nil => exact .inl rfl
        | cons u us => exact .inr (hspaced t (by simp))
      have hrest := ih (us ++ [t]) hname.2 (by simpa using hspaced)
      rw [List.cons_append, readTokens_nameChar hname.1 ht, hrest]
      simp

theorem exists_name (us : List Token) (hus : ∀ t ∈ us, t.IsPlain)
    (hspaced : ∀ t ∈ us.tail, t.isSpaced = false)
    (h : (withinName us).readTokens none ts = some D) :
    ∃ (name : List Token) (opening : Token) (rest : List Token) (ended : Bool),
      us ++ ts = name ++ opening :: rest ∧ (∀ t ∈ name, t.IsPlain) ∧
      (∀ t ∈ name.tail, t.isSpaced = false) ∧ opening.char = '\x7b' ∧
      (withinClause (String.ofList (Token.chars name)) ended none []).readTokens none rest =
        some D := by
  -- `us` is the part of the name that has been read
  induction ts generalizing us with
  | nil => simp [readTokens, withinName] at h
  | cons t ts ih =>
      by_cases hl : Text.isLayout t.char = true
      · rw [readTokens_layout hl] at h
        cases h
      rw [Bool.not_eq_true] at hl
      by_cases hstop : t.char = ';' ∨ t.char = '\x7d' ∨ t.char = '\'' ∨ t.char = '"'
      · rw [readTokens_nameStop hstop] at h
        cases h
      by_cases hopening : t.char = '\x7b'
      · obtain ⟨ended, hread⟩ := readTokens_bodyOpening us hopening ts
        exact ⟨us, t, ts, ended, rfl, hus, hspaced, hopening, hread ▸ h⟩
      simp only [not_or] at hstop
      have ht : t.IsPlain := ⟨hl, hstop.1, hopening, hstop.2.1, hstop.2.2.1, hstop.2.2.2⟩
      by_cases hs : us = [] ∨ t.isSpaced = false
      · rw [readTokens_nameChar ht hs] at h
        have htail : ∀ u ∈ (us ++ [t]).tail, u.isSpaced = false := by
          cases us with
          | nil => simp
          | cons u us =>
              exact List.forall_mem_append.2
                ⟨hspaced, List.forall_mem_singleton.2 (hs.resolve_left (by simp))⟩
        obtain ⟨name, opening, rest, ended, htokens, hname⟩ :=
          ih (us ++ [t]) (List.forall_mem_append.2 ⟨hus, List.forall_mem_singleton.2 ht⟩) htail h
        exact ⟨name, opening, rest, ended, by simpa using htokens, hname⟩
      · rw [not_or, Bool.not_eq_false] at hs
        rw [readTokens_nameChar_spaced ht hs.1 hs.2] at h
        cases h

end Scanner

namespace Definition

open Scanner

private theorem declaredName?_body (name : List Token) (ended : Bool) (d : Draft) :
    (body (String.ofList (Token.chars name)) ended d).declaredName? =
      if name = [] then none else some (String.ofList (Token.chars name)) := by
  cases name <;> simp [Scanner.declaredName?, body]

theorem readTokens_of_isWellFormed {tree : ParseTree} (h : tree.IsWellFormed) :
    Scanner.initial.readTokens none tree.tokens = some tree.definition := by
  obtain ⟨name, opening, clauses, rest, closing⟩ := tree
  obtain ⟨ended, hbody⟩ := readTokens_bodyOpening name h.opening
    (clauses.flatMap Clause.tokens ++ (rest.flatMap Part.tokens ++ [closing]))
  have hrest (start? : Option Nat) :
      (withinClause (String.ofList (Token.chars name)) ended start? []).readTokens none
        (rest.flatMap Part.tokens ++ [closing]) =
          some ⟨(body (String.ofList (Token.chars name)) ended .empty).declaredName?, []⟩ := by
    have hvoid : (Draft.ofParts start? rest).isVoid = true := by
      refine Draft.isVoid_ofParts.2 ⟨?_, ?_⟩
      · exact List.flatMap_eq_nil_iff.2 fun p hp => (h.rest p hp).2.1
      · exact List.flatMap_eq_nil_iff.2 fun p hp => (h.rest p hp).2.2
    rw [readTokens_parts fun p hp => (h.rest p hp).1, List.nil_append, withinClause,
      readTokens_closing rfl h.closing]
    exact ⟨hvoid, rfl, rfl⟩
  have htokens : ParseTree.tokens ⟨name, opening, clauses, rest, closing⟩ =
      name ++ opening :: (clauses.flatMap Clause.tokens ++
        (rest.flatMap Part.tokens ++ [closing])) := by
    simp [ParseTree.tokens]
  have hname := readTokens_name [] h.name h.nameTogether
    (opening :: (clauses.flatMap Clause.tokens ++ (rest.flatMap Part.tokens ++ [closing])))
  rw [htokens]
  refine hname.trans ?_
  rw [List.nil_append]
  refine hbody.trans ?_
  rw [readTokens_clauses h.clauses hrest, declaredName?_body]
  simp [Definition.prepend, ParseTree.definition]

theorem exists_parseTree {ts : List Token} {d : Definition}
    (h : Scanner.initial.readTokens none ts = some d) :
    ∃ tree : ParseTree, tree.IsWellFormed ∧ tree.tokens = ts ∧ tree.definition = d := by
  obtain ⟨name, opening, rest, ended, rfl, hname, htogether, hopening, hread⟩ :=
    exists_name [] (by simp) (by simp) h
  obtain ⟨clauses, rest, closing, htokens, hclauses, hrest, hclosing, rfl⟩ :=
    exists_clauses (by simp) hread
  refine ⟨⟨name, opening, clauses, rest, closing⟩,
    ⟨hname, htogether, hopening, hclauses, hrest, hclosing⟩, ?_, ?_⟩
  · rw [List.flatMap_nil, List.nil_append] at htokens
    simp [ParseTree.tokens, htokens]
  · rw [declaredName?_body]
    rfl

/-- A text is a definition if and only if it has a parse tree, which tells what is defined. -/
theorem ofText_eq_ok_iff {label text : String} {d : Definition} :
    ofText label text = .ok d ↔ ∃ tree : ParseTree, tree.Parses text ∧ tree.definition = d := by
  rw [ofText_eq_ok_iff_readTokens]
  constructor
  · intro h
    obtain ⟨tree, hwell, htokens, hd⟩ := exists_parseTree h
    exact ⟨tree, ⟨hwell, htokens⟩, hd⟩
  · rintro ⟨tree, ⟨hwell, htokens⟩, rfl⟩
    rw [← htokens]
    exact readTokens_of_isWellFormed hwell

end Definition

end EntityModel
