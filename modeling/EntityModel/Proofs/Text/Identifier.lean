import EntityModel.Text.Blank
import EntityModel.Text.Letter
import EntityModel.Text.Quoted

/-!
# Characters of identifiers

An identifier holds no layout: the ranges of letters and numerals do not meet those of blanks and
controls.
-/

namespace EntityModel.Text

def CharRanges.avoids (rs others : CharRanges) : Bool :=
  rs.all fun r => others.all fun o => r.2 < o.1 || o.2 < r.1

theorem CharRanges.not_contains_of_avoids {rs others : CharRanges} (h : rs.avoids others = true)
    {o : Nat × Nat} (ho : o ∈ others) {n : Nat} (hlow : o.1 ≤ n) (hhigh : n ≤ o.2) :
    rs.contains n = false := by
  cases hn : rs.contains n with
  | false => rfl
  | true =>
      obtain ⟨r, hr, hrlow, hrhigh⟩ := exists_of_contains hn
      have hdisjoint := List.all_eq_true.1 (List.all_eq_true.1 h r hr) o ho
      simp only [Bool.or_eq_true, decide_eq_true_eq] at hdisjoint
      omega

def layoutRanges : CharRanges := blankRanges ++ [(0x00, 0x1F), (0x7F, 0x9F)]

theorem exists_of_isLayout {c : Char} (h : isLayout c = true) :
    ∃ o ∈ layoutRanges, o.1 ≤ c.toNat ∧ c.toNat ≤ o.2 := by
  rw [isLayout, Bool.or_eq_true] at h
  rcases h with hb | hc
  · obtain ⟨o, ho, hrange⟩ := CharRanges.exists_of_contains hb
    exact ⟨o, List.mem_append_left _ ho, hrange⟩
  · simp only [isControl, Bool.or_eq_true, Bool.and_eq_true, decide_eq_true_eq] at hc
    rcases hc with hc | ⟨hlow, hhigh⟩
    · exact ⟨(0x00, 0x1F), by simp [layoutRanges], by omega, by omega⟩
    · exact ⟨(0x7F, 0x9F), by simp [layoutRanges], hlow, hhigh⟩

theorem alphabetic_avoids_layout : alphabeticRanges.avoids layoutRanges = true := by
  decide +kernel

theorem numeric_avoids_layout : numericRanges.avoids layoutRanges = true := by decide +kernel

theorem not_isIdentifierChar_of_isLayout {c : Char} (h : isLayout c = true) :
    isIdentifierChar c = false := by
  obtain ⟨o, ho, hlow, hhigh⟩ := exists_of_isLayout h
  have ha : isAlphabetic c = false :=
    CharRanges.not_contains_of_avoids alphabetic_avoids_layout ho hlow hhigh
  have hn : isNumeric c = false :=
    CharRanges.not_contains_of_avoids numeric_avoids_layout ho hlow hhigh
  have hu : c ≠ '_' := by
    rintro rfl
    exact absurd h (by decide)
  simp [isIdentifierChar, isAlphanumeric, ha, hn, hu]

def markers : List Char := [';', '\x7b', '\x7d', '\'', '"', '/', ':', '(', ')', ',', '#', '@']

theorem not_isIdentifierChar_of_mem_markers {c : Char} (h : c ∈ markers) :
    isIdentifierChar c = false := by
  have hall : markers.all (fun d => !isIdentifierChar d) = true := by decide +kernel
  have hc := List.all_eq_true.1 hall c h
  rw [Bool.not_eq_true'] at hc
  exact hc

theorem isIdentifierChar_of_mem {cs : List Char} (h : isIdentifier cs = true) {c : Char}
    (hc : c ∈ cs) : isIdentifierChar c = true := by
  rw [isIdentifier, Bool.and_eq_true, List.all_eq_true] at h
  exact h.2 c hc

theorem notMem_of_isIdentifier {cs : List Char} (h : isIdentifier cs = true) {c : Char}
    (hc : isIdentifierChar c = false) : c ∉ cs := by
  intro hmem
  rw [isIdentifierChar_of_mem h hmem] at hc
  cases hc

theorem notMem_of_isEntityName {cs : List Char} (h : isEntityName cs = true) {c : Char}
    (hc : isIdentifierChar c = false) : c ∉ cs :=
  notMem_of_isIdentifier (isIdentifier_of_isEntityName h) hc

theorem bne_of_notMem {mark : Char} {cs : List Char} (h : mark ∉ cs) :
    ∀ c ∈ cs, (c != mark) = true := by
  intro c hc
  rw [bne_iff_ne]
  rintro rfl
  exact h hc

end EntityModel.Text
