/-!
# Runs that succeed

Reading is a sequence of steps, each of which may fail. If the whole succeeds then each step has,
with a value that the next one starts from; the texts of faults play no part in it.
-/

namespace EntityModel

variable {ε ε' α β : Type} {x : Except ε α}

theorem bind_eq_ok_iff {f : α → Except ε β} {b : β} :
    x >>= f = .ok b ↔ ∃ a, x = .ok a ∧ f a = .ok b := by
  cases x with
  | error fault =>
      constructor
      · intro h
        cases h
      · intro h
        obtain ⟨a, ha, -⟩ := h
        cases ha
  | ok a =>
      constructor
      · intro h
        exact ⟨a, rfl, h⟩
      · intro h
        obtain ⟨a', ha, hf⟩ := h
        obtain rfl := Except.ok.inj ha
        exact hf

theorem mapError_ok (f : ε → ε') (a : α) : (Except.ok a : Except ε α).mapError f = .ok a := rfl

theorem mapError_eq_ok_iff {f : ε → ε'} {a : α} : x.mapError f = .ok a ↔ x = .ok a := by
  cases x with
  | error fault => constructor <;> intro h <;> cases h
  | ok b =>
      rw [mapError_ok]
      simp

end EntityModel
