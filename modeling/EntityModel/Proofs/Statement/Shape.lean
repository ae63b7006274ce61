import EntityModel.Definition
import EntityModel.Proofs.Statement.Printing
import EntityModel.Proofs.Statement.Transitions

/-!
# The shape of statements

What every statement of a readable definition looks like, however it is laid out: a declaration of
two identifiers or a block with elements, well-formed elements filed as annotations or tags, and
lines in order. The scanner keeps, from character to character, what this needs of the statement
that it is reading.
-/

namespace EntityModel

structure InOrder (low : Nat) (lines : List Nat) (high : Nat) : Prop where
  pairwise : lines.Pairwise (· ≤ ·)
  bounds : ∀ n ∈ lines, low ≤ n ∧ n ≤ high

namespace InOrder

variable {low high high' : Nat} {lines : List Nat}

theorem nil (low high : Nat) : InOrder low [] high := ⟨.nil, by simp⟩

theorem mono (h : InOrder low lines high) (hle : high ≤ high') : InOrder low lines high' :=
  ⟨h.pairwise, fun n hn => ⟨(h.bounds n hn).1, Nat.le_trans (h.bounds n hn).2 hle⟩⟩

theorem concat {n : Nat} (h : InOrder low lines n) (hlow : low ≤ n) (hhigh : n ≤ high) :
    InOrder low (lines ++ [n]) high := by
  refine ⟨?_, fun k hk => ?_⟩
  · rw [List.pairwise_append]
    refine ⟨h.pairwise, by simp, fun k hk m hm => ?_⟩
    rw [List.mem_singleton.1 hm]
    exact (h.bounds k hk).2
  · rcases List.mem_append.1 hk with hk | hk
    · exact ⟨(h.bounds k hk).1, Nat.le_trans (h.bounds k hk).2 hhigh⟩
    · rw [List.mem_singleton.1 hk]
      exact ⟨hlow, hhigh⟩

end InOrder

/-- Elements as they are filed: well formed, all of them tags or none, on lines in order. -/
structure Element.AreFiled (tags : Bool) (low : Nat) (elements : List Element) (high : Nat) :
    Prop where
  wellFormed : ∀ e ∈ elements, IsWellFormed e.text
  isTag : ∀ e ∈ elements, Element.isTag e.text = tags
  inOrder : InOrder low (elements.map Element.line) high

namespace Element.AreFiled

variable {tags : Bool} {low high high' : Nat} {elements : List Element}

theorem nil (tags : Bool) (low high : Nat) : AreFiled tags low [] high :=
  ⟨by simp, by simp, .nil low high⟩

theorem mono (h : AreFiled tags low elements high) (hle : high ≤ high') :
    AreFiled tags low elements high' := ⟨h.wellFormed, h.isTag, h.inOrder.mono hle⟩

theorem concat {e : Element} (h : AreFiled tags low elements e.line) (hlow : low ≤ e.line)
    (hhigh : e.line ≤ high) (he : IsWellFormed e.text) (ht : Element.isTag e.text = tags) :
    AreFiled tags low (elements ++ [e]) high := by
  refine ⟨fun e' he' => ?_, fun e' he' => ?_, ?_⟩
  · rcases List.mem_append.1 he' with hold | hnew
    · exact h.wellFormed e' hold
    · rwa [List.mem_singleton.1 hnew]
  · rcases List.mem_append.1 he' with hold | hnew
    · exact h.isTag e' hold
    · rwa [List.mem_singleton.1 hnew]
  · rw [List.map_append, List.map_singleton]
    exact h.inOrder.concat hlow hhigh

end Element.AreFiled

/-- What a statement of a definition of so many lines looks like. -/
structure Statement.IsShaped (s : Statement) (lineCount : Nat) : Prop where
  declares : Text.isIdentifier s.name.toList = true ∧ Text.isIdentifier s.typeName.toList = true ∨
    s.name = "" ∧ s.typeName = "" ∧ (s.annotations ≠ [] ∨ s.tags ≠ [])
  line : 1 ≤ s.line ∧ s.line ≤ lineCount
  annotations : Element.AreFiled false s.line s.annotations lineCount
  tags : Element.AreFiled true s.line s.tags lineCount

theorem Statement.IsShaped.mono {s : Statement} {lineCount lineCount' : Nat}
    (h : s.IsShaped lineCount) (hle : lineCount ≤ lineCount') : s.IsShaped lineCount' :=
  ⟨h.declares, ⟨h.line.1, Nat.le_trans h.line.2 hle⟩, h.annotations.mono hle, h.tags.mono hle⟩

namespace Draft

/-- A draft whose statement begins on the line `first` and whose elements so far are filed in
order, up to the line `last`. -/
structure IsFiled (d : Draft) (first last : Nat) : Prop where
  startLine : d.startLine? = some first
  first_le : first ≤ last
  annotations : Element.AreFiled false first d.annotations last
  tags : Element.AreFiled true first d.tags last

namespace IsFiled

variable {d : Draft} {first last last' : Nat}

theorem mono (h : d.IsFiled first last) (hle : last ≤ last') : d.IsFiled first last' :=
  ⟨h.startLine, Nat.le_trans h.first_le hle, h.annotations.mono hle, h.tags.mono hle⟩

theorem setBlock (h : d.IsFiled first last) (b? : Option Block) :
    IsFiled { d with block? := b? } first last :=
  ⟨h.startLine, h.first_le, h.annotations, h.tags⟩

theorem addElement {b : Block} (h : d.IsFiled first b.elementLine)
    (hb : Element.IsWellFormed b.element) : (d.addElement b).IsFiled first b.elementLine := by
  have hempty : b.element.isEmpty = false := by simpa using hb.1
  have htag : Element.isTagText b.element = Element.isTag b.element := hb.isTagText_eq
  cases hkind : Element.isTag b.element with
  | true =>
      simp only [Draft.addElement, hempty, htag, hkind, Bool.false_eq_true, if_false, if_true]
      exact ⟨h.startLine, h.first_le, h.annotations,
        h.tags.concat (e := ⟨b.element, b.elementLine⟩) h.first_le (Nat.le_refl _) hb hkind⟩
  | false =>
      simp only [Draft.addElement, hempty, htag, hkind, Bool.false_eq_true, if_false]
      exact ⟨h.startLine, h.first_le,
        h.annotations.concat (e := ⟨b.element, b.elementLine⟩) h.first_le (Nat.le_refl _) hb hkind,
        h.tags⟩

end IsFiled

/-- The line that the elements filed so far do not pass: that of the element being read, or else
the current one. -/
def reach (d : Draft) (line : Nat) : Nat :=
  match d.block? with
  | some b => if b.element.isEmpty then line else b.elementLine
  | none => line

/-- A draft as it stands on a line where the given quote is open: its element is well formed so
far, and begins no earlier than those before it. -/
structure IsStarted (d : Draft) (first line : Nat) (open? : Option Char) : Prop where
  filed : d.IsFiled first (d.reach line)
  reach_le : d.reach line ≤ line
  nesting : ∀ b ∈ d.block?, Nesting.outside.afterAll? b.element.toList = some ⟨b.depth, open?⟩
  closed : d.block? = none → open? = none

namespace IsStarted

variable {d : Draft} {first line : Nat} {open? : Option Char} {b : Block}

theorem nextLine (h : d.IsStarted first line none) : d.IsStarted first (line + 1) none := by
  have hreach : d.reach line ≤ d.reach (line + 1) ∧ d.reach (line + 1) ≤ line + 1 := by
    have hle := h.reach_le
    rw [reach, reach] at *
    split
    · split
      · omega
      · rename_i b hb helement
        rw [hb] at hle
        simp only [helement, Bool.false_eq_true, if_false] at hle
        exact ⟨Nat.le_refl _, by omega⟩
    · omega
  exact ⟨h.filed.mono hreach.1, hreach.2, h.nesting, h.closed⟩

theorem extend (h : d.IsStarted first line open?) (hb : d.block? = some b) {c : Char}
    {next : Nesting} (hnext : Nesting.after? ⟨b.depth, open?⟩ c = some next) :
    IsStarted { d with block? := some { b.push line c with depth := next.depth } } first line
      next.quote? := by
  have hreach : reach { d with block? := some { b.push line c with depth := next.depth } } line =
      d.reach line := by
    simp [reach, hb, Block.push]
  refine ⟨?_, ?_, fun b' hb' => ?_, by simp⟩
  · rw [hreach]
    exact h.filed.setBlock _
  · rw [hreach]
    exact h.reach_le
  · obtain rfl := Option.some.inj hb'
    have helement : (b.push line c).element.toList = b.element.toList ++ [c] := by
      simp [Block.push]
    show Nesting.outside.afterAll? (b.push line c).element.toList = some next
    rw [helement, Nesting.afterAll?_append (h.nesting b hb), Nesting.afterAll?_cons hnext,
      Nesting.afterAll?_nil]

theorem file (h : d.IsStarted first line none) (hb : d.block? = some b) (hd : b.depth = 0)
    {b'? : Option Block} (hb' : ∀ b' ∈ b'?, b' = { b with element := "" }) :
    IsStarted { d.addElement b with block? := b'? } first line none := by
  have hreach : reach { d.addElement b with block? := b'? } line = line := by
    cases b'? with
    | none => rfl
    | some b' => simp [reach, hb' b' rfl]
  have hfiled : (d.addElement b).IsFiled first line := by
    by_cases hempty : b.element.isEmpty = true
    · simp only [addElement, hempty, if_true]
      exact h.filed.mono h.reach_le
    · have helement : d.reach line = b.elementLine := by simp [reach, hb, hempty]
      have hwell : Element.IsWellFormed b.element := by
        refine ⟨by simpa using hempty, ?_⟩
        rw [h.nesting b hb, hd]
        rfl
      have hle := h.reach_le
      have hbefore := h.filed
      rw [helement] at hle hbefore
      exact (hbefore.addElement hwell).mono hle
  refine ⟨?_, ?_, fun b' hmem => ?_, fun _ => rfl⟩
  · rw [hreach]
    exact hfiled.setBlock b'?
  · exact Nat.le_of_eq hreach
  · rw [hb' b' hmem]
    simp [hd, Nesting.outside]

end IsStarted

theorem splitDeclaration_isIdentifier {declaration name typeName : String}
    (h : splitDeclaration declaration = .ok (name, typeName)) :
    Text.isIdentifier name.toList = true ∧ Text.isIdentifier typeName.toList = true := by
  simp only [splitDeclaration] at h
  split at h
  · cases h
  · split at h
    · cases h
    · rename_i hname
      split at h
      · cases h
      · rename_i htype
        obtain ⟨rfl, rfl⟩ := Prod.mk.inj (Except.ok.inj h)
        rw [String.toList_ofList, String.toList_ofList]
        exact ⟨by simpa using hname, by simpa using htype⟩

theorem toStatement_eq_ok {d : Draft} {line : Nat} {s : Statement}
    (h : d.toStatement line = .ok s) :
    (d.declaration = "" ∧ s.name = "" ∧ s.typeName = "" ∨
      Text.isIdentifier s.name.toList = true ∧ Text.isIdentifier s.typeName.toList = true) ∧
    s.annotations = d.annotations ∧ s.tags = d.tags ∧ s.line = d.startLine?.getD line := by
  rw [toStatement] at h
  split at h
  · rename_i hempty
    obtain rfl := Except.ok.inj h
    exact ⟨.inl ⟨by simpa using hempty, rfl, rfl⟩, rfl, rfl, rfl⟩
  · obtain ⟨split, hsplit, h⟩ := bind_eq_ok_iff.1 h
    obtain rfl := Except.ok.inj h
    exact ⟨.inr (splitDeclaration_isIdentifier hsplit), rfl, rfl, rfl⟩

def Awaits (d : Draft) (first line : Nat) (open? : Option Char) : Prop :=
  d = .empty ∧ first = line ∧ open? = none ∨ d.IsStarted first line open?

/-- Statements in order, and after them the draft of the next one. -/
structure Follows (d : Draft) (done : List Statement) (first line : Nat) (open? : Option Char) :
    Prop where
  shaped : ∀ s ∈ done, s.IsShaped line
  inOrder : InOrder 1 (done.map Statement.line) first
  one_le : 1 ≤ first
  draft : d.Awaits first line open?

variable {d : Draft} {done : List Statement} {first line : Nat} {open? : Option Char}

theorem Awaits.le (h : d.Awaits first line open?) : first ≤ line := by
  obtain ⟨-, rfl, -⟩ | h := h
  · exact Nat.le_refl _
  · exact Nat.le_trans h.filed.first_le h.reach_le

theorem Awaits.startAt (h : d.Awaits first line none) (hb : d.block? = none) :
    (d.startAt line).IsFiled first line := by
  obtain ⟨rfl, rfl, -⟩ | h := h
  · exact ⟨rfl, Nat.le_refl _, .nil _ _ _, .nil _ _ _⟩
  · have hfiled := h.filed
    rw [reach, hb] at hfiled
    exact ⟨by simp [Draft.startAt, hfiled.startLine], hfiled.first_le, hfiled.annotations,
      hfiled.tags⟩

theorem Awaits.isStarted (h : d.Awaits first line open?) {b : Block} (hb : d.block? = some b) :
    d.IsStarted first line open? := by
  obtain ⟨rfl, -, -⟩ | h := h
  · cases hb
  · exact h

theorem Awaits.isShaped_of_toStatement (h : d.Awaits first line none) (hfirst : 1 ≤ first)
    (hb : d.block? = none) (hv : d.isVoid = false) {s : Statement} (hs : d.toStatement line = .ok s) :
    s.IsShaped line ∧ s.line = first := by
  obtain ⟨rfl, -, -⟩ | h := h
  · cases hv
  · obtain ⟨hdeclares, hannotations, htags, hline⟩ := toStatement_eq_ok hs
    have hfiled := h.filed
    rw [reach, hb] at hfiled
    rw [hfiled.startLine, Option.getD_some] at hline
    refine ⟨⟨?_, hline ▸ ⟨hfirst, hfiled.first_le⟩, ?_, ?_⟩, hline⟩
    · rw [hannotations, htags]
      obtain ⟨hdeclaration, hname, htype⟩ | hidentifiers := hdeclares
      · refine .inr ⟨hname, htype, ?_⟩
        refine Decidable.not_or_of_imp ?_
        simpa [isVoid, hdeclaration, hb] using hv
      · exact .inl hidentifiers
    · rw [hannotations, hline]
      exact hfiled.annotations
    · rw [htags, hline]
      exact hfiled.tags

theorem Follows.withDraft (h : d.Follows done first line open?) {d' : Draft}
    {open'? : Option Char} (hd' : d'.Awaits first line open'?) :
    d'.Follows done first line open'? := ⟨h.shaped, h.inOrder, h.one_le, hd'⟩

theorem Follows.reads {c : Char} {open'? : Option Char} {d' : Draft}
    {statement? : Option Statement} (h : d.Follows done first line none)
    (hreads : d.Reads line c open'? d' statement?) :
    ∃ first', d'.Follows (done ++ statement?.toList) first' line open'? := by
  have hkept {d' : Draft} {open'? : Option Char} (hd' : d'.Awaits first line open'?) :
      ∃ first', d'.Follows (done ++ []) first' line open'? := by
    rw [List.append_nil]
    exact ⟨first, h.withDraft hd'⟩
  cases hreads with
  | kept => exact hkept h.draft
  | declared hb =>
      have hfiled := h.draft.startAt hb
      have hreach : reach { d.startAt line with declaration := d.declaration.push c } line =
          line := by simp [reach, startAt, hb]
      refine hkept (.inr ⟨?_, Nat.le_of_eq hreach, by simp [startAt, hb], fun _ => rfl⟩)
      rw [hreach]
      exact ⟨hfiled.startLine, hfiled.first_le, hfiled.annotations, hfiled.tags⟩
  | opened hb =>
      exact hkept (.inr ⟨(h.draft.startAt hb).setBlock _, Nat.le_refl _,
        by simp [openBlock, Nesting.outside], by simp [openBlock]⟩)
  | ended hb hv hstatement =>
      obtain ⟨hshaped, hline⟩ := h.draft.isShaped_of_toStatement h.one_le hb hv hstatement
      refine ⟨line, ?_, ?_, Nat.le_trans h.one_le h.draft.le, .inl ⟨rfl, rfl, rfl⟩⟩
      · intro s hs
        rcases List.mem_append.1 hs with hs | hs
        · exact h.shaped s hs
        · rw [Option.toList_some, List.mem_singleton] at hs
          rwa [hs]
      · rw [List.map_append, Option.toList_some, List.map_singleton, hline]
        exact h.inOrder.concat h.one_le h.draft.le
  | extended hb hnext => exact hkept (.inr ((h.draft.isStarted hb).extend hb hnext))
  | filed b'? hb hd hb' => exact hkept (.inr ((h.draft.isStarted hb).file hb hd hb'))

theorem Follows.quoted {q c : Char} (h : d.Follows done first line (some q)) (hc : c ≠ '\n') :
    Follows { d with block? := d.block?.map (·.push line c) } done first line
      (Text.quoteAfter (some q) c) := by
  obtain ⟨-, -, hquote⟩ | hstarted := h.draft
  · cases hquote
  · cases hb : d.block? with
    | none => cases hstarted.closed hb
    | some b =>
        have hnext : Nesting.after? ⟨b.depth, some q⟩ c =
            some ⟨b.depth, Text.quoteAfter (some q) c⟩ := by simp [Nesting.after?, hc]
        exact h.withDraft (.inr (hstarted.extend hb hnext))

theorem Follows.nextLine (h : d.Follows done first line none) :
    ∃ first', d.Follows done first' (line + 1) none := by
  have hshaped : ∀ s ∈ done, s.IsShaped (line + 1) := fun s hs => (h.shaped s hs).mono (by omega)
  obtain ⟨rfl, rfl, -⟩ | hstarted := h.draft
  · exact ⟨first + 1, hshaped, h.inOrder.mono (by omega), by omega, .inl ⟨rfl, rfl, rfl⟩⟩
  · exact ⟨first, hshaped, h.inOrder, h.one_le, .inr hstarted.nextLine⟩

end Draft

theorem Scanner.follows_step {s next : Scanner} {label : String} {line first : Nat}
    {cs : List Char} {done statements : List Statement}
    (h : s.draft.Follows done first line none) (hcs : '\n' ∉ cs)
    (hstep : s.step label line cs = .ok (next, statements)) :
    ∃ first', next.draft.Follows (done ++ statements) first' line none := by
  have hmark : '\n' ∉ withoutByteOrderMark line cs := by
    rw [withoutByteOrderMark]
    split
    · exact fun hmem => hcs (List.mem_of_mem_tail hmem)
    · exact hcs
  have hchars : { s with lastLine := line }.chars line none (withoutByteOrderMark line cs) =
      .ok (next, statements) := by
    rw [step] at hstep
    split at hstep
    · rename_i hread
      rwa [← Except.ok.inj hstep]
    · cases hstep
  refine chars_invariant (s := { s with lastLine := line })
    (I := fun open? d done => ∃ first, d.Follows done first line open?) ?_ ?_ hmark ⟨first, h⟩ hchars
  · rintro q d done c hc ⟨first, hfollows⟩
    exact ⟨first, hfollows.quoted hc⟩
  · rintro d done c open? d' statement? ⟨first, hfollows⟩ hreads
    exact hfollows.reads hreads

namespace Definition

/-- What a definition looks like that is read from so many lines. -/
structure IsShaped (d : Definition) (lineCount : Nat) : Prop where
  statements : ∀ s ∈ d.statements, s.IsShaped lineCount
  inOrder : (d.statements.map Statement.line).Pairwise (· ≤ ·)

theorem exists_of_ofLines_cons {label : String} {s : Scanner} {n : Nat} {line : List Char}
    {unread : List (List Char)} {d : Definition}
    (h : ofLines label s n (line :: unread) = .ok d) :
    ∃ next statements rest, s.step label (n + 1) line = .ok (next, statements) ∧
      ofLines label next (n + 1) unread = .ok rest ∧
      d = ⟨rest.declaredName?, statements ++ rest.statements⟩ := by
  rw [ofLines] at h
  obtain ⟨⟨next, statements⟩, hstep, h⟩ := bind_eq_ok_iff.1 h
  obtain ⟨rest, hrest, h⟩ := bind_eq_ok_iff.1 h
  exact ⟨next, statements, rest, hstep, hrest, (Except.ok.inj h).symm⟩

theorem isShaped_of_ofLines {label : String} {s : Scanner} {n first : Nat}
    {unread : List (List Char)} {done : List Statement} {d : Definition}
    (hdone : ∀ st ∈ done, st.IsShaped n) (hs : s.draft.Follows done first (n + 1) none)
    (hunread : ∀ line ∈ unread, '\n' ∉ line) (h : ofLines label s n unread = .ok d) :
    IsShaped ⟨d.declaredName?, done ++ d.statements⟩ (n + unread.length) := by
  -- the draft of the next statement stands on the line after those that have been read
  induction unread generalizing s n first done d with
  | nil =>
      rw [ofLines] at h
      obtain ⟨name?, -, h⟩ := bind_eq_ok_iff.1 h
      obtain rfl := Except.ok.inj h
      rw [List.append_nil]
      exact ⟨hdone, hs.inOrder.pairwise⟩
  | cons line unread ih =>
      rw [List.forall_mem_cons] at hunread
      obtain ⟨next, statements, rest, hstep, hrest, rfl⟩ := exists_of_ofLines_cons h
      obtain ⟨first', hnext⟩ := Scanner.follows_step hs hunread.1 hstep
      obtain ⟨first'', hline⟩ := hnext.nextLine
      have hshaped := ih hnext.shaped hline hunread.2 hrest
      rw [List.length_cons, Nat.add_comm unread.length, ← Nat.add_assoc, ← List.append_assoc]
      exact hshaped

theorem isShaped_of_ofText {label text : String} {d : Definition} (h : ofText label text = .ok d) :
    d.IsShaped (Text.lines text.toList).length := by
  have hinitial : Scanner.initial.draft.Follows [] 1 1 none :=
    ⟨by simp, .nil 1 1, Nat.le_refl 1, .inl ⟨rfl, rfl, rfl⟩⟩
  have hshaped := isShaped_of_ofLines (n := 0) (by simp) hinitial
    (fun _ => Text.newline_notMem_of_mem_lines) h
  rwa [Nat.zero_add] at hshaped

theorem isShaped_of_ofText_row :
    ∃ d, ofText "seat" "Seat \x7b row \x7b #x(';'), @Min(\n1) \x7d : int;\n\x7d" = .ok d ∧
      d.statements = [⟨"row", "int", [⟨"@Min(1)", 1⟩], [⟨"#x(';')", 1⟩], 1⟩] ∧ d.IsShaped 3 := by
  have hsome :
      (ofText "seat" "Seat \x7b row \x7b #x(';'), @Min(\n1) \x7d : int;\n\x7d").toOption.map
        statements = some [⟨"row", "int", [⟨"@Min(1)", 1⟩], [⟨"#x(';')", 1⟩], 1⟩] := by
    decide +kernel
  generalize hread : ofText _ _ = result at hsome ⊢
  cases result with
  | error e => cases hsome
  | ok d => exact ⟨d, rfl, Option.some.inj hsome, isShaped_of_ofText hread⟩

end Definition

end EntityModel
