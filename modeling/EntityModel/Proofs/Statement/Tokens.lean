import EntityModel.Proofs.Statement.RunningText

/-!
# Tokens

Outside quotes layout and comments are dropped wherever they stand, so a text says no more than
its other characters: the tokens. A token knows its line and whether something was dropped right
before it, which only the name of the entity takes note of. Reading a text is reading its tokens.
-/

namespace EntityModel

/-- A character that is neither layout nor part of a comment, unless it stands in quotes. -/
structure Token where
  char : Char
  line : Nat
  isSpaced : Bool
deriving Repr, DecidableEq

namespace Token

def scan (cover : Cover) (line : Nat) (isSpaced : Bool) : List Char → List Token
  | [] => []
  | c :: rest =>
      match cover with
      | .quoted q =>
          ⟨c, line, isSpaced⟩ :: scan (.ofQuote? (Text.quoteAfter (some q) c)) line false rest
      | .comment =>
          if c = '\n' then scan .uncovered (line + 1) true rest else scan .comment line true rest
      | .uncovered =>
          if c = '\n' then scan .uncovered (line + 1) true rest
          else if Text.isLayout c then scan .uncovered line true rest
          else if c = '/' ∧ rest.head? = some '/' then scan .comment line true rest
          else ⟨c, line, isSpaced⟩ :: scan (.ofQuote? (Text.quoteAfter none c)) line false rest

def ofText (text : String) : List Token :=
  scan .uncovered 1 false (Scanner.withoutByteOrderMark 1 text.toList)

end Token

def Cover.quote? : Cover → Option Char
  | .quoted q => some q
  | .uncovered | .comment => none

@[simp] theorem Cover.quote?_ofQuote? (open? : Option Char) : (ofQuote? open?).quote? = open? := by
  cases open? <;> rfl

namespace Scanner

/-- The scanner on a line to which it has come directly or through layout and comments, which end
the name. -/
def onLine (s : Scanner) (line : Nat) (isSpaced : Bool) : Scanner :=
  { if isSpaced then s.endName else s with lastLine := line }

/-- Reads tokens to the end of the definition; `open?` is the open quote. Outside quotes layout is
no token. -/
def readTokens (s : Scanner) (open? : Option Char) : List Token → Option Definition
  | [] => if open?.isNone ∧ s.phase = .closed then some ⟨s.declaredName?, []⟩ else none
  | t :: ts =>
      if open?.isSome then
        if t.char = '\n' then none
        else
          ((s.onLine t.line t.isSpaced).quotedChar t.line t.char).readTokens
            (Text.quoteAfter open? t.char) ts
      else if Text.isLayout t.char then none
      else
        match (s.onLine t.line t.isSpaced).char t.line t.char with
        | .error _ => none
        | .ok (next, statement?) =>
            (next.readTokens (Text.quoteAfter none t.char) ts).map
              (Definition.prepend statement?.toList)

variable {s : Scanner} {label : String} {line : Nat} {isSpaced : Bool} {d : Definition}

theorem endName_onLine : (s.onLine line isSpaced).endName = s.onLine line true := by
  have hendName (s : Scanner) : { s with lastLine := line }.endName =
      { s.endName with lastLine := line } := by
    rw [endName, endName]
    split <;> rfl
  cases isSpaced with
  | false => exact hendName s
  | true =>
      rw [onLine, hendName, if_pos rfl, endName_endName]

@[simp] theorem phase_onLine : (s.onLine line isSpaced).phase = s.phase := by
  cases isSpaced with
  | false => rfl
  | true => exact phase_endName s

@[simp] theorem name_onLine : (s.onLine line isSpaced).name = s.name := by
  cases isSpaced with
  | false => rfl
  | true => exact name_endName s

theorem finish_eq_ok_iff {name? : Option String} :
    s.finish label = .ok name? ↔ s.phase = .closed ∧ s.declaredName? = name? := by
  rw [finish]
  cases s.phase <;> simp

end Scanner

namespace Cursor

variable {label : String} {k : Cursor} {s : Scanner} {isSpaced : Bool} {d : Definition}

/-- The cursor stands where the scanner has come to. In a comment the name has not ended yet, but
it will have before the next token. -/
def Follows (k : Cursor) (s : Scanner) (isSpaced : Bool) : Prop :=
  match k.cover with
  | .comment => k.marked.endName = s.onLine k.line true
  | .uncovered | .quoted _ => k.marked = s.onLine k.line isSpaced

theorem Follows.phase_eq (h : k.Follows s isSpaced) : k.scanner.phase = s.phase := by
  have hmarked : k.marked.phase = k.scanner.phase := rfl
  rw [Follows] at h
  split at h
  · rw [← hmarked, ← Scanner.phase_endName, h, Scanner.phase_onLine]
  all_goals rw [← hmarked, h, Scanner.phase_onLine]

theorem Follows.declaredName?_eq (h : k.Follows s isSpaced) :
    k.scanner.declaredName? = s.declaredName? := by
  have hname : k.scanner.name = s.name := by
    have hmarked : k.marked.name = k.scanner.name := rfl
    rw [Follows] at h
    split at h
    · rw [← hmarked, ← Scanner.name_endName, h, Scanner.name_onLine]
    all_goals rw [← hmarked, h, Scanner.name_onLine]
  rw [Scanner.declaredName?, Scanner.declaredName?, hname]

theorem finish_map_eq_ok_iff (h : k.Follows s isSpaced) :
    (k.finish label).map (fun name? => ⟨name?, []⟩) = .ok d ↔
      s.readTokens k.cover.quote? [] = some d := by
  have hfinish (name? : Option String) : k.scanner.finish label = .ok name? ↔
      s.phase = .closed ∧ s.declaredName? = name? := by
    rw [Scanner.finish_eq_ok_iff, h.phase_eq, h.declaredName?_eq]
  have hunquoted : (k.scanner.finish label).map (fun name? => ⟨name?, []⟩) = .ok d ↔
      s.readTokens none [] = some d := by
    simp only [Scanner.readTokens, Option.isNone_none, true_and]
    cases hresult : k.scanner.finish label with
    | error e =>
        have hphase : s.phase ≠ .closed := fun hclosed => by
          simp [(hfinish _).2 ⟨hclosed, rfl⟩] at hresult
        simp [Except.map, hphase]
    | ok name? =>
        obtain ⟨hphase, rfl⟩ := (hfinish name?).1 hresult
        simp [Except.map, hphase]
  rw [finish]
  cases k.cover with
  | quoted q => simp [Except.map, Cover.quote?, Scanner.readTokens]
  | uncovered | comment =>
      rw [Scanner.finish_endName]
      exact hunquoted

theorem follows_self (s : Scanner) (line : Nat) (open? : Option Char) :
    (⟨s, line, .ofQuote? open?⟩ : Cursor).Follows s false := by
  cases open? <;> rfl

theorem Follows.endName_marked (h : k.Follows s isSpaced) (hk : ∀ q, k.cover ≠ .quoted q) :
    k.marked.endName = s.onLine k.line true := by
  rw [Follows] at h
  split at h
  · exact h
  · rw [h, Scanner.endName_onLine]
  · rename_i q hq
    exact absurd hq (hk q)

private theorem follows_of_endName (h : k.marked.endName = s.onLine k.line true) (line : Nat) :
    (⟨k.marked.endName, line, .uncovered⟩ : Cursor).Follows s true := by
  rw [h]
  rfl

inductive Scans (k : Cursor) (s : Scanner) (isSpaced : Bool) (c : Char) (rest : List Char) : Prop where
  | dropped {next : Cursor} (hquote : k.cover.quote? = none) (hnext : next.cover.quote? = none)
      (hreads : k.Reads c rest.head? next []) (hfollows : next.Follows s true)
      (hscan : Token.scan k.cover k.line isSpaced (c :: rest) =
        Token.scan next.cover next.line true rest)
  | quoted {q : Char} (hk : k.cover = .quoted q) (hmarked : k.marked = s.onLine k.line isSpaced)
      (hscan : Token.scan k.cover k.line isSpaced (c :: rest) = ⟨c, k.line, isSpaced⟩ ::
        Token.scan (.ofQuote? (Text.quoteAfter (some q) c)) k.line false rest)
  | char (hk : k.cover = .uncovered) (hl : Text.isLayout c = false)
      (hcomment : ¬(c = '/' ∧ rest.head? = some '/')) (hmarked : k.marked = s.onLine k.line isSpaced)
      (hscan : Token.scan k.cover k.line isSpaced (c :: rest) = ⟨c, k.line, isSpaced⟩ ::
        Token.scan (.ofQuote? (Text.quoteAfter none c)) k.line false rest)

theorem Follows.scans (h : k.Follows s isSpaced) (c : Char) (rest : List Char) :
    k.Scans s isSpaced c rest := by
  obtain ⟨scanner, line, cover⟩ := k
  cases cover with
  | quoted q => exact .quoted rfl h rfl
  | comment =>
      have hended := h.endName_marked (by simp)
      by_cases hc : c = '\n'
      · refine .dropped rfl rfl (.newline (by simp) hc) (follows_of_endName hended _) ?_
        simp only [Token.scan, if_pos hc]
      · refine .dropped rfl rfl (.skipped rfl hc) hended ?_
        simp only [Token.scan, if_neg hc]
  | uncovered =>
      have hended := h.endName_marked (by simp)
      by_cases hc : c = '\n'
      · refine .dropped rfl rfl (.newline (by simp) hc) (follows_of_endName hended _) ?_
        simp only [Token.scan, if_pos hc]
      by_cases hl : Text.isLayout c = true
      · refine .dropped rfl rfl (.layout rfl hc hl) (follows_of_endName hended _) ?_
        simp only [Token.scan, if_neg hc, if_pos hl]
      by_cases hcomment : c = '/' ∧ rest.head? = some '/'
      · refine .dropped rfl rfl (.slash rfl hcomment) hended ?_
        simp only [Token.scan, if_neg hc, if_neg hl, if_pos hcomment]
      · refine .char rfl (by simpa using hl) hcomment h ?_
        simp only [Token.scan, if_neg hc, if_neg hl, if_neg hcomment]

private theorem map_eq_ok_iff {ε α β : Type} {f : α → β} {x : Except ε α} {b : β} :
    x.map f = .ok b ↔ ∃ a, x = .ok a ∧ f a = b := by
  cases x <;> simp [Except.map]

theorem readAll_eq_ok_iff (h : k.Follows s isSpaced) (cs : List Char) :
    k.readAll label cs = .ok d ↔
      s.readTokens k.cover.quote? (Token.scan k.cover k.line isSpaced cs) = some d := by
  induction cs generalizing k s isSpaced d with
  | nil => exact finish_map_eq_ok_iff h
  | cons c rest ih =>
      cases h.scans c rest with
      | dropped hquote hnext hreads hfollows hscan =>
          rw [hreads.readAll_nil, ih hfollows, hscan, hquote, hnext]
      | @quoted q hk hmarked hscan =>
          rw [hscan, hk]
          simp only [Cover.quote?, Scanner.readTokens, Option.isSome_some, if_true]
          by_cases hc : c = '\n'
          · simp [readAll, read, hk, hc]
          · rw [(Reads.quoted hk hc).readAll_nil, if_neg hc, hmarked, ih (follows_self _ _ _),
              Cover.quote?_ofQuote?]
      | char hk hl hcomment hmarked hscan =>
          rw [hscan, hk]
          simp only [Cover.quote?, Scanner.readTokens, hl, Bool.false_eq_true, if_false,
            Option.isSome_none]
          cases hchar : (s.onLine k.line isSpaced).char k.line c with
          | error fault =>
              have hfault := read_error hk hl hcomment (hmarked.symm ▸ hchar) label
              simp [readAll, hfault]
          | ok result =>
              obtain ⟨next, statement?⟩ := result
              rw [(Reads.char hk hl hcomment (hmarked.symm ▸ hchar)).readAll, map_eq_ok_iff,
                Option.map_eq_some_iff]
              simp only [ih (follows_self _ _ _), Cover.quote?_ofQuote?]

end Cursor

namespace Definition

/-- A text is read exactly if its tokens are, to the same definition. -/
theorem ofText_eq_ok_iff_readTokens {label text : String} {d : Definition} :
    ofText label text = .ok d ↔
      Scanner.initial.readTokens none (Token.ofText text) = some d := by
  have hstart : Cursor.start.Follows Scanner.initial false := rfl
  rw [ofText_eq_readAll, Cursor.readAll_eq_ok_iff hstart]
  rfl

end Definition

end EntityModel
