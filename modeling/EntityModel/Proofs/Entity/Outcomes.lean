import EntityModel.Proofs.Entity.Accounts

/-!
# Outcomes of elements

Reading the elements of a statement gives one outcome for each: an annotation or tag to go on with,
or a rejection. Whatever is then done with those that were read settles the fate of every element.
-/

namespace EntityModel

@[simp] theorem accepted_nil {ε α : Type} : accepted ([] : List (Except ε α)) = [] := rfl

@[simp] theorem accepted_cons_ok {ε α : Type} (a : α) (outcomes : List (Except ε α)) :
    accepted (.ok a :: outcomes) = a :: accepted outcomes := rfl

@[simp] theorem accepted_cons_error {ε α : Type} (e : ε) (outcomes : List (Except ε α)) :
    accepted (.error e :: outcomes) = accepted outcomes := rfl

@[simp] theorem rejected_nil {ε α : Type} : rejected ([] : List (Except ε α)) = [] := rfl

@[simp] theorem rejected_cons_ok {ε α : Type} (a : α) (outcomes : List (Except ε α)) :
    rejected (.ok a :: outcomes) = rejected outcomes := rfl

@[simp] theorem rejected_cons_error {ε α : Type} (e : ε) (outcomes : List (Except ε α)) :
    rejected (.error e :: outcomes) = e :: rejected outcomes := rfl

theorem exists_of_mem_forall₂ {α β : Type} {R : α → β → Prop} {as : List α} {bs : List β}
    (h : as.Forall₂ R bs) {b : β} (hb : b ∈ bs) : ∃ a ∈ as, R a b := by
  induction h with
  | nil => cases hb
  | @cons a b' as bs hab _ ih =>
      rcases List.mem_cons.1 hb with rfl | hrest
      · exact ⟨a, List.mem_cons_self .., hab⟩
      · obtain ⟨a', ha', hR⟩ := ih hrest
        exact ⟨a', List.mem_cons_of_mem _ ha', hR⟩

inductive IsOutcome {α : Type} (read : String → Option Nat → Except AnnotationFault α)
    (e : Element) : Except Rejection α → Prop where
  | ok {a : α} (hread : read e.text (some e.line) = .ok a) : IsOutcome read e (.ok a)
  | error {r : Rejection} (hline : r.line = e.line) (hkind : r.problem.kind = .entry) :
      IsOutcome read e (.error r)

theorem exists_of_mem_accepted {α : Type} {read : String → Option Nat → Except AnnotationFault α}
    {elements : List Element} {outcomes : List (Except Rejection α)} {a : α}
    (h : elements.Forall₂ (IsOutcome read) outcomes) (ha : a ∈ accepted outcomes) :
    ∃ e ∈ elements, read e.text (some e.line) = .ok a := by
  induction h with
  | nil => cases ha
  | @cons e outcome elements outcomes houtcome _ ih =>
      cases houtcome with
      | ok hread =>
          rw [accepted_cons_ok, List.mem_cons] at ha
          rcases ha with rfl | ha
          · exact ⟨e, by simp, hread⟩
          · obtain ⟨e', he', hread'⟩ := ih ha
            exact ⟨e', by simp [he'], hread'⟩
      | error =>
          obtain ⟨e', he', hread'⟩ := ih ha
          exact ⟨e', by simp [he'], hread'⟩

section Reading

variable {α κ : Type} [DecidableEq κ]

/-- Annotations and tags are read in one manner, by their kinds and by their names: the first of
each is accepted, besides those seen before. -/
def outcomesBy (read : String → Option Nat → Except AnnotationFault α) (key : α → κ)
    (repeated : κ → Problem) (seen : List κ) : List Element → List (Except Rejection α)
  | [] => []
  | element :: rest =>
      match read element.text (some element.line) with
      | .error fault =>
          .error ⟨element.line, .rejected fault⟩ :: outcomesBy read key repeated seen rest
      | .ok a =>
          if key a ∈ seen then
            .error ⟨element.line, repeated (key a)⟩ :: outcomesBy read key repeated seen rest
          else .ok a :: outcomesBy read key repeated (key a :: seen) rest

theorem annotationOutcomes_eq (seen : List AnnotationKind) (elements : List Element) :
    annotationOutcomes seen elements =
      outcomesBy AnnotationUse.ofText AnnotationUse.kind .repeatedKind seen elements := by
  induction elements generalizing seen with
  | nil => rfl
  | cons element rest ih =>
      simp only [annotationOutcomes, outcomesBy, ih]
      cases AnnotationUse.ofText element.text (some element.line) <;> rfl

theorem tagOutcomes_eq (seen : List String) (elements : List Element) :
    tagOutcomes seen elements =
      outcomesBy TagUse.ofText TagUse.name .repeatedTag seen elements := by
  induction elements generalizing seen with
  | nil => rfl
  | cons element rest ih =>
      simp only [tagOutcomes, outcomesBy, ih]
      cases TagUse.ofText element.text (some element.line) <;> rfl

variable {read : String → Option Nat → Except AnnotationFault α} {key : α → κ}
  {repeated : κ → Problem}

theorem isOutcome_outcomesBy (hrepeated : ∀ k, (repeated k).kind = .entry) (seen : List κ)
    (elements : List Element) :
    elements.Forall₂ (IsOutcome read) (outcomesBy read key repeated seen elements) := by
  induction elements generalizing seen with
  | nil => exact .nil
  | cons element rest ih =>
      rw [outcomesBy]
      cases hread : read element.text (some element.line) with
      | error fault => exact .cons (.error rfl rfl) (ih seen)
      | ok a =>
          by_cases hseen : key a ∈ seen
          · simp only [hseen, if_true]
            exact .cons (.error rfl (hrepeated (key a))) (ih seen)
          · simp only [hseen, if_false]
            exact .cons (.ok hread) (ih (key a :: seen))

theorem nodup_accepted_outcomesBy (seen : List κ) (elements : List Element) :
    ((accepted (outcomesBy read key repeated seen elements)).map key).Nodup ∧
      ∀ a ∈ accepted (outcomesBy read key repeated seen elements), key a ∉ seen := by
  induction elements generalizing seen with
  | nil => exact ⟨.nil, by simp [outcomesBy]⟩
  | cons element rest ih =>
      rw [outcomesBy]
      cases read element.text (some element.line) with
      | error fault => exact ih seen
      | ok a =>
          by_cases hseen : key a ∈ seen
          · simp only [hseen, if_true]
            exact ih seen
          · simp only [hseen, if_false, accepted_cons_ok, List.map_cons, List.nodup_cons,
              List.forall_mem_cons]
            obtain ⟨hnodup, hfresh⟩ := ih (key a :: seen)
            refine ⟨⟨fun hmem => ?_, hnodup⟩, not_false, fun other hother hold => ?_⟩
            · obtain ⟨other, hother, hkey⟩ := List.mem_map.1 hmem
              exact hfresh other hother (by simp [hkey])
            · exact hfresh other hother (by simp [hold])

end Reading

section Statement

variable (elements : List Element)

theorem isOutcome_annotationOutcomes :
    elements.Forall₂ (IsOutcome AnnotationUse.ofText) (annotationOutcomes [] elements) := by
  rw [annotationOutcomes_eq]
  exact isOutcome_outcomesBy (fun _ => rfl) [] elements

theorem isOutcome_tagOutcomes :
    elements.Forall₂ (IsOutcome TagUse.ofText) (tagOutcomes [] elements) := by
  rw [tagOutcomes_eq]
  exact isOutcome_outcomesBy (fun _ => rfl) [] elements

theorem nodup_accepted_annotationOutcomes :
    ((accepted (annotationOutcomes [] elements)).map AnnotationUse.kind).Nodup := by
  rw [annotationOutcomes_eq]
  exact (nodup_accepted_outcomesBy [] elements).1

theorem nodup_accepted_tagOutcomes :
    ((accepted (tagOutcomes [] elements)).map TagUse.name).Nodup := by
  rw [tagOutcomes_eq]
  exact (nodup_accepted_outcomesBy [] elements).1

end Statement

def outcomeFate {α : Type} (settle : α → Fate) : Except Rejection α → Fate
  | .ok a => settle a
  | .error r => .rejected r

section OutcomeFate

variable {α : Type} {settle : α → Fate}

theorem filterMap_outcomeFate {β : Type} {g : Fate → Option β} (hg : ∀ r, g (.rejected r) = none)
    (outcomes : List (Except Rejection α)) :
    (outcomes.map (outcomeFate settle)).filterMap g =
      ((accepted outcomes).map settle).filterMap g := by
  induction outcomes with
  | nil => rfl
  | cons outcome outcomes ih =>
      cases outcome with
      | ok a =>
          rw [List.map_cons, accepted_cons_ok, List.map_cons, List.filterMap_cons,
            List.filterMap_cons, ih, outcomeFate]
      | error r => rw [List.map_cons, List.filterMap_cons, outcomeFate, hg, ih, accepted_cons_error]

theorem rejection_outcomeFate (settle : α → Fate) (outcomes : List (Except Rejection α)) :
    ((outcomes.map (outcomeFate settle)).filterMap Fate.rejection?).Perm
      (rejected outcomes ++ ((accepted outcomes).map settle).filterMap Fate.rejection?) := by
  induction outcomes with
  | nil => exact .nil
  | cons outcome outcomes ih =>
      cases outcome with
      | ok a =>
          rw [List.map_cons, rejected_cons_ok, accepted_cons_ok, List.map_cons,
            List.filterMap_cons, List.filterMap_cons, outcomeFate]
          cases (settle a).rejection? with
          | none => exact ih
          | some r => exact (ih.cons r).trans List.perm_middle.symm
      | error r => exact ih.cons r

theorem forall₂_outcomeFate {O : Element → Except Rejection α → Prop} {R : Element → Fate → Prop}
    {elements : List Element} {outcomes : List (Except Rejection α)}
    (houtcomes : elements.Forall₂ O outcomes) (hok : ∀ e a, O e (.ok a) → R e (settle a))
    (herror : ∀ e r, O e (.error r) → R e (.rejected r)) :
    elements.Forall₂ R (outcomes.map (outcomeFate settle)) := by
  refine List.forall₂_map_right_iff.2 (houtcomes.imp fun e outcome houtcome => ?_)
  cases outcome with
  | ok a => exact hok e a houtcome
  | error r => exact herror e r houtcome

end OutcomeFate

end EntityModel
