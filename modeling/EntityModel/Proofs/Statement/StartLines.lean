import EntityModel.Proofs.Statement.Parsing

/-!
# The lines of statements

A statement is meant to stand on the line of its first token. It does, unless clauses that yield
no statement but have a block stand before it: the scanner then keeps the line of the first of
these blocks.
-/

namespace EntityModel

namespace Clause

variable {c : Clause} {cs voids front back : List Clause} {start? : Option Nat}

theorem exists_line (hc : ¬ c.IsVoid) : ∃ line, c.line? = some line := by
  rw [line?]
  cases hparts : c.parts with
  | nil => exact absurd ⟨by simp [declaration, hparts], by simp [elements, hparts]⟩ hc
  | cons p parts => exact ⟨p.line, rfl⟩

theorem statements_voids (hvoids : ∀ v ∈ voids, v.IsVoid) (cs : List Clause) :
    statements start? (voids ++ cs) =
      statements (start?.or (voids.findSome? line?)) cs := by
  induction voids generalizing start? with
  | nil => simp
  | cons v voids ih =>
      rw [List.forall_mem_cons] at hvoids
      rw [List.cons_append, statements, if_pos hvoids.1, ih hvoids.2, List.findSome?_cons]
      cases start? <;> cases v.line? <;> rfl

theorem statements_append_cons (hc : ¬ c.IsVoid) (front cs : List Clause) :
    statements start? (front ++ c :: cs) =
      statements start? (front ++ [c]) ++ statements none cs := by
  induction front generalizing start? with
  | nil => simp [statements, if_neg hc]
  | cons b front ih =>
      by_cases hb : b.IsVoid
      · simp only [List.cons_append, statements, if_pos hb, ih]
      · simp only [List.cons_append, statements, if_neg hb, ih]

theorem length_statements (start? : Option Nat) (cs : List Clause) :
    (statements start? cs).length = (cs.filter fun c => ¬ c.IsVoid).length := by
  induction cs generalizing start? with
  | nil => rfl
  | cons c cs ih =>
      by_cases hc : c.IsVoid
      · simp [statements, hc, ih]
      · simp [statements, hc, ih]

theorem line_getElem?_statements (hfront : ∀ last ∈ front.getLast?, ¬ last.IsVoid)
    (hvoids : ∀ v ∈ voids, v.IsVoid) (hc : ¬ c.IsVoid) (back : List Clause) :
    ((statements none (front ++ voids ++ c :: back))[
        (front.filter fun c => ¬ c.IsVoid).length]?).map Statement.line =
      (voids ++ [c]).findSome? line? := by
  have hsplit : statements none (front ++ voids ++ c :: back) =
      statements none front ++ statements none (voids ++ c :: back) := by
    rw [List.append_assoc]
    cases hlast : front.getLast? with
    | none =>
        rw [List.getLast?_eq_none_iff.1 hlast]
        rfl
    | some last =>
        obtain ⟨before, rfl⟩ := List.getLast?_eq_some_iff.1 hlast
        rw [List.append_assoc, List.singleton_append,
          statements_append_cons (hfront last hlast)]
  obtain ⟨line, hline⟩ := exists_line hc
  rw [hsplit, ← length_statements none, List.getElem?_append_right (Nat.le_refl _), Nat.sub_self,
    statements_voids hvoids, statements, if_neg hc, List.getElem?_cons_zero, Option.map_some,
    List.findSome?_append, hline, List.findSome?_singleton, hline]
  cases voids.findSome? line? <;> rfl

/-- If no clause without a statement has a block, every statement stands on its own line. -/
theorem lines_statements (hcs : ∀ c ∈ cs, c.IsVoid → c.parts = []) :
    (statements none cs).map (fun s => some s.line) =
      (cs.filter fun c => ¬ c.IsVoid).map line? := by
  induction cs with
  | nil => rfl
  | cons c cs ih =>
      rw [List.forall_mem_cons] at hcs
      by_cases hc : c.IsVoid
      · have hline : c.line? = none := by simp [line?, hcs.1 hc]
        simpa [statements, hc, hline] using ih hcs.2
      · obtain ⟨line, hline⟩ := exists_line hc
        simpa [statements, hc, hline, statement] using ih hcs.2

end Clause

namespace Definition

/-- A statement stands on the line of the first token, semicolons aside, since the last semicolon
that ended a statement. If no clause without a statement has a block, this is the first token of
the statement itself. -/
theorem lines_of_ofText {label text : String} {d : Definition} (h : ofText label text = .ok d) :
    (∃ tree : ParseTree, tree.Parses text) ∧
      ∀ tree : ParseTree, tree.Parses text →
        (∀ front voids c back, tree.clauses = front ++ voids ++ c :: back →
          (∀ last ∈ front.getLast?, ¬ last.IsVoid) → (∀ v ∈ voids, v.IsVoid) → ¬ c.IsVoid →
            (d.statements[(front.filter fun c => ¬ c.IsVoid).length]?).map Statement.line =
              (voids ++ [c]).findSome? Clause.line?) ∧
        ((∀ c ∈ tree.clauses, c.IsVoid → c.parts = []) →
          d.statements.map (fun s => some s.line) =
            (tree.clauses.filter fun c => ¬ c.IsVoid).map Clause.line?) := by
  obtain ⟨tree, htree, -⟩ := ofText_eq_ok_iff.1 h
  refine ⟨⟨tree, htree⟩, fun tree htree => ?_⟩
  obtain rfl : tree.definition = d :=
    Except.ok.inj ((ofText_eq_ok_iff.2 ⟨tree, htree, rfl⟩).symm.trans h)
  refine ⟨?_, Clause.lines_statements⟩
  rintro front voids c back hclauses hfront hvoids hc
  rw [ParseTree.definition, hclauses]
  exact Clause.line_getElem?_statements hfront hvoids hc back

def afterEmptyBlock : ParseTree where
  name := [⟨'E', 1, false⟩]
  opening := ⟨'\x7b', 1, true⟩
  clauses := [
    ⟨[.block ⟨'\x7b', 2, true⟩ [] [] ⟨'\x7d', 2, true⟩], ⟨';', 2, true⟩⟩,
    ⟨[.declared ⟨'i', 3, true⟩, .declared ⟨'d', 3, false⟩, .declared ⟨':', 3, true⟩,
      .declared ⟨'i', 3, true⟩, .declared ⟨'n', 3, false⟩, .declared ⟨'t', 3, false⟩],
      ⟨';', 3, true⟩⟩]
  rest := []
  closing := ⟨'\x7d', 4, true⟩

theorem parses_afterEmptyBlock :
    afterEmptyBlock.Parses "E \x7b\n\x7b \x7d ;\nid : int ;\n\x7d" :=
  ⟨by decide +kernel, by decide +kernel⟩

theorem ofText_afterEmptyBlock :
    ofText "E" "E \x7b\n\x7b \x7d ;\nid : int ;\n\x7d" =
      .ok ⟨some "E", [⟨"id", "int", [], [], 2⟩]⟩ :=
  ofText_eq_ok_iff.2 ⟨afterEmptyBlock, parses_afterEmptyBlock, by decide +kernel⟩

theorem lines_of_ofText_afterEmptyBlock :
    ofText "E" "E \x7b\n\x7b \x7d ;\nid : int ;\n\x7d" =
        .ok ⟨some "E", [⟨"id", "int", [], [], 2⟩]⟩ ∧
      some 2 = afterEmptyBlock.clauses.findSome? Clause.line? :=
  ⟨ofText_afterEmptyBlock,
    ((lines_of_ofText ofText_afterEmptyBlock).2 afterEmptyBlock parses_afterEmptyBlock).1
      [] [_] _ [] rfl (by decide) (by decide +kernel) (by decide +kernel)⟩

/-- After an empty block a statement stands on the line of the block. -/
theorem not_forall_lines :
    ¬ ∀ label text d (tree : ParseTree), ofText label text = .ok d → tree.Parses text →
      d.statements.map (fun s => some s.line) =
        (tree.clauses.filter fun c => ¬ c.IsVoid).map Clause.line? := by
  intro h
  have hlines := h "E" _ _ afterEmptyBlock ofText_afterEmptyBlock parses_afterEmptyBlock
  exact absurd hlines (by decide +kernel)

end Definition

end EntityModel
