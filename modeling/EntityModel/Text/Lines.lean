/-!
# Lines of a text

A line feed ends a line, together with one carriage return before it. A text that ends with a
line feed has no further empty line, and a carriage return by itself ends nothing.
-/

namespace EntityModel.Text

def lines : List Char → List (List Char)
  | [] => []
  | '\n' :: rest => [] :: lines rest
  | '\r' :: '\n' :: rest => [] :: lines rest
  | c :: rest =>
      match lines rest with
      | [] => [[c]]
      | line :: more => (c :: line) :: more

@[simp] theorem lines_nil : lines [] = [] := by simp [lines]

@[simp] theorem lines_newline (rest : List Char) : lines ('\n' :: rest) = [] :: lines rest := by
  simp [lines]

theorem newline_notMem_of_mem_lines {cs line : List Char} (h : line ∈ lines cs) : '\n' ∉ line := by
  fun_induction lines cs generalizing line with
  | case1 => cases h
  | case2 rest ih | case3 rest ih =>
      obtain rfl | h := List.mem_cons.1 h
      · simp
      · exact ih h
  | case4 c rest hc _ hlines ih =>
      obtain rfl := List.mem_singleton.1 h
      simpa using Ne.symm hc
  | case5 c rest hc _ first more hlines ih =>
      obtain rfl | h := List.mem_cons.1 h
      · rw [List.mem_cons, not_or]
        exact ⟨Ne.symm hc, ih (by simp [hlines])⟩
      · exact ih (by simp [hlines, h])

theorem lines_append_newline {line : List Char} (hn : '\n' ∉ line)
    (hr : line.getLast? ≠ some '\r') (rest : List Char) :
    lines (line ++ '\n' :: rest) = line :: lines rest := by
  induction line with
  | nil => simp
  | cons c line ih =>
      have hc : c ≠ '\n' := fun h => hn (by simp [h])
      have hline : '\n' ∉ line := fun h => hn (by simp [h])
      have hlast : line.getLast? ≠ some '\r' := by
        intro h
        rw [List.getLast?_cons, h] at hr
        exact hr rfl
      rw [List.cons_append, lines, ih hline hlast]
      · exact hc
      · intro tail h htail
        cases line with
        | nil => exact hr (by simp [h])
        | cons d line =>
            rw [List.cons_append, List.cons.injEq] at htail
            exact hline (by simp [htail.1])

theorem lines_flatMap {ls : List (List Char)}
    (h : ∀ line ∈ ls, '\n' ∉ line ∧ line.getLast? ≠ some '\r') :
    lines (ls.flatMap fun line => line ++ ['\n']) = ls := by
  induction ls with
  | nil => rfl
  | cons line ls ih =>
      have hline := h line (by simp)
      rw [List.flatMap_cons, List.append_assoc, List.singleton_append,
        lines_append_newline hline.1 hline.2, ih fun l hl => h l (by simp [hl])]

end EntityModel.Text
