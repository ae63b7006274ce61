/-!
# Sets of characters as ranges

A character property is a list of ascending ranges of code points, both ends included.
-/

namespace EntityModel.Text

abbrev CharRanges := List (Nat × Nat)

def CharRanges.contains : CharRanges → Nat → Bool
  | [], _ => false
  | (low, high) :: rest, n => if n < low then false else n ≤ high || CharRanges.contains rest n

@[simp] theorem CharRanges.contains_nil (n : Nat) : CharRanges.contains [] n = false := rfl

theorem CharRanges.exists_of_contains {rs : CharRanges} {n : Nat} (h : rs.contains n = true) :
    ∃ r ∈ rs, r.1 ≤ n ∧ n ≤ r.2 := by
  induction rs with
  | nil => simp at h
  | cons r rest ih =>
      obtain ⟨low, high⟩ := r
      by_cases hl : n < low
      · simp [contains, hl] at h
      · by_cases hh : n ≤ high
        · exact ⟨(low, high), by simp, by omega, hh⟩
        · have hr : CharRanges.contains rest n = true := by simpa [contains, hl, hh] using h
          obtain ⟨r, hm, hb⟩ := ih hr
          exact ⟨r, by simp [hm], hb⟩

end EntityModel.Text
