import EntityModel.Proofs.Entity.FieldNames

/-!
# Declaring attributes and foreign keys

An entity is built by declarations: of attributes whose names are free, and of columns of foreign
keys. What the declarations preserve does not depend on where they come from.
-/

namespace EntityModel

namespace Entity

variable {e : Entity} {name referenced : String} {b : Binding} {uses : List AnnotationUse}

@[simp] theorem names_markForeignKey (name : String) (attributes : List Attribute) :
    (markForeignKey name attributes).map Attribute.name = attributes.map Attribute.name := by
  induction attributes with
  | nil => rfl
  | cons a rest ih =>
      rw [markForeignKey]
      by_cases ha : a.name = name
      · rw [if_pos ha]
        rfl
      · rw [if_neg ha, List.map_cons, ih, List.map_cons]

theorem names_foldl_markForeignKey (bindings : List Binding) (attributes : List Attribute) :
    (bindings.foldl (fun as b => markForeignKey b.origin as) attributes).map Attribute.name =
      attributes.map Attribute.name := by
  induction bindings generalizing attributes with
  | nil => rfl
  | cons b bindings ih => rw [List.foldl_cons, ih, names_markForeignKey]

theorem extendForeignKey_eq_some {keys keys' : List ForeignKey} {duplicates : List AnnotationUse}
    (h : extendForeignKey name referenced b uses keys = some (keys', duplicates)) :
    ∃ before fk after, keys = before ++ fk :: after ∧
      (fk.name = name ∧ fk.referenced = referenced) ∧
      keys' = before ++ (fk.addBinding b uses).1 :: after ∧
      duplicates = (fk.addBinding b uses).2 := by
  induction keys generalizing keys' with
  | nil => simp [extendForeignKey] at h
  | cons fk rest ih =>
      rw [extendForeignKey] at h
      by_cases hends : fk.name = name ∧ fk.referenced = referenced
      · rw [if_pos hends] at h
        obtain ⟨rfl, rfl⟩ := Prod.mk.inj (Option.some.inj h)
        exact ⟨[], fk, rest, rfl, hends, rfl, rfl⟩
      · rw [if_neg hends, Option.map_eq_some_iff] at h
        obtain ⟨⟨extended, duplicates'⟩, hextended, heq⟩ := h
        obtain ⟨rfl, rfl⟩ := Prod.mk.inj heq
        obtain ⟨before, joined, after, rfl, hjoined, rfl, hduplicates⟩ := ih hextended
        exact ⟨fk :: before, joined, after, rfl, hjoined, rfl, hduplicates⟩

theorem extendForeignKey_eq_none {keys : List ForeignKey}
    (h : extendForeignKey name referenced b uses keys = none) {fk : ForeignKey} (hfk : fk ∈ keys) :
    ¬(fk.name = name ∧ fk.referenced = referenced) := by
  induction keys with
  | nil => cases hfk
  | cons first rest ih =>
      rw [extendForeignKey] at h
      by_cases hends : first.name = name ∧ first.referenced = referenced
      · rw [if_pos hends] at h
        cases h
      · rw [if_neg hends, Option.map_eq_none_iff] at h
        rcases List.mem_cons.1 hfk with rfl | hrest
        · exact hends
        · exact ih h hrest

theorem foreignKeys_declareForeignKey (e : Entity) (name referenced : String) (b : Binding)
    (uses : List AnnotationUse) :
    (∃ before fk after, e.foreignKeys = before ++ fk :: after ∧
        (fk.name = name ∧ fk.referenced = referenced) ∧
        (e.declareForeignKey name referenced b uses).1.foreignKeys =
          before ++ (fk.addBinding b uses).1 :: after) ∨
      (∀ fk ∈ e.foreignKeys, ¬(fk.name = name ∧ fk.referenced = referenced)) ∧
        (e.declareForeignKey name referenced b uses).1.foreignKeys =
          e.foreignKeys ++ [⟨name, e.name, referenced, [b], uses⟩] := by
  cases h : extendForeignKey name referenced b uses e.foreignKeys with
  | none =>
      refine .inr ⟨fun fk hfk => extendForeignKey_eq_none h hfk, ?_⟩
      simp only [declareForeignKey, h]
  | some result =>
      obtain ⟨before, fk, after, hkeys, hends, hresult, -⟩ := extendForeignKey_eq_some h
      refine .inl ⟨before, fk, after, hkeys, hends, ?_⟩
      simp only [declareForeignKey, h]
      exact hresult

theorem duplicates_declareForeignKey_nil (e : Entity) (name referenced : String) (b : Binding) :
    (e.declareForeignKey name referenced b []).2 = [] := by
  cases h : extendForeignKey name referenced b [] e.foreignKeys with
  | none => simp only [declareForeignKey, h]
  | some result =>
      obtain ⟨before, fk, after, -, -, -, hduplicates⟩ := extendForeignKey_eq_some h
      simp only [declareForeignKey, h]
      exact hduplicates

theorem attributes_declareForeignKey (e : Entity) (name referenced : String) (b : Binding)
    (uses : List AnnotationUse) :
    (e.declareForeignKey name referenced b uses).1.attributes =
      markForeignKey b.origin e.attributes := by
  rw [declareForeignKey]
  split <;> rfl

theorem names_declareForeignKey (e : Entity) (name referenced : String) (b : Binding)
    (uses : List AnnotationUse) :
    (e.declareForeignKey name referenced b uses).1.attributes.map Attribute.name =
      e.attributes.map Attribute.name := by
  rw [attributes_declareForeignKey, names_markForeignKey]

theorem links_declareForeignKey (e : Entity) (name referenced : String) (b : Binding)
    (uses : List AnnotationUse) :
    (e.declareForeignKey name referenced b uses).1.links = e.links := by
  rw [declareForeignKey]
  split <;> rfl

theorem name_declareForeignKey (e : Entity) (name referenced : String) (b : Binding)
    (uses : List AnnotationUse) :
    (e.declareForeignKey name referenced b uses).1.name = e.name := by
  rw [declareForeignKey]
  split <;> rfl

structure KeyIsBound (attributes : List String) (fk : ForeignKey) : Prop where
  bindings_ne_nil : fk.bindings ≠ []
  origins : ∀ b ∈ fk.bindings, b.origin ∈ attributes

theorem KeyIsBound.mono {names names' : List String} {fk : ForeignKey} (h : KeyIsBound names fk)
    (hsubset : names ⊆ names') : KeyIsBound names' fk :=
  ⟨h.bindings_ne_nil, fun b hb => hsubset (h.origins b hb)⟩

structure IsBuilt (e : Entity) : Prop where
  nodup_names : (e.attributes.map Attribute.name).Nodup
  links_eq_nil : e.links = []
  keys : ∀ fk ∈ e.foreignKeys, KeyIsBound (e.attributes.map Attribute.name) fk

theorem isBuilt_ofName (name : String) : (ofName name).IsBuilt :=
  ⟨by simp [ofName], rfl, by simp [ofName]⟩

theorem IsBuilt.nodup_fieldNames (h : e.IsBuilt) : e.fieldNames.Nodup := by
  rw [fieldNames, h.links_eq_nil, List.map_nil, List.append_nil]
  exact h.nodup_names

theorem IsBuilt.addAttribute (h : e.IsBuilt) {a : Attribute}
    (ha : a.name ∉ e.attributes.map Attribute.name) : (e.addAttribute a).IsBuilt := by
  have hnames : (e.addAttribute a).attributes.map Attribute.name =
      e.attributes.map Attribute.name ++ [a.name] := by simp [Entity.addAttribute]
  refine ⟨?_, h.links_eq_nil, fun fk hfk => ?_⟩
  · rw [hnames, List.nodup_middle, List.append_nil, List.nodup_cons]
    exact ⟨ha, h.nodup_names⟩
  · rw [hnames]
    exact (h.keys fk hfk).mono (List.subset_append_left _ _)

theorem IsBuilt.declareForeignKey (h : e.IsBuilt) (hb : b.origin ∈ e.attributes.map Attribute.name)
    (name referenced : String) (uses : List AnnotationUse) :
    (e.declareForeignKey name referenced b uses).1.IsBuilt := by
  refine ⟨?_, ?_, fun fk hfk => ?_⟩
  · rw [names_declareForeignKey]
    exact h.nodup_names
  · rw [links_declareForeignKey]
    exact h.links_eq_nil
  · rw [names_declareForeignKey]
    rcases foreignKeys_declareForeignKey e name referenced b uses with
      ⟨before, joined, after, hkeys, -, hresult⟩ | ⟨-, hresult⟩
    · have hjoined := h.keys joined (by rw [hkeys]; simp)
      rw [hresult, List.mem_append, List.mem_cons] at hfk
      rcases hfk with hbefore | rfl | hafter
      · exact h.keys fk (by rw [hkeys]; simp [hbefore])
      · refine ⟨by simp [ForeignKey.addBinding], fun b' hb' => ?_⟩
        rw [ForeignKey.addBinding, List.mem_append, List.mem_singleton] at hb'
        rcases hb' with hold | rfl
        · exact hjoined.origins b' hold
        · exact hb
      · exact h.keys fk (by rw [hkeys]; simp [hafter])
    · rw [hresult, List.mem_append, List.mem_singleton] at hfk
      rcases hfk with hold | rfl
      · exact h.keys fk hold
      · exact ⟨by simp, fun b' hb' => by rw [List.mem_singleton.1 hb']; exact hb⟩

def keyEnds (e : Entity) : List (String × String) :=
  e.foreignKeys.map fun fk => (fk.name, fk.referenced)

/-- Columns with one name and one target belong to one key. -/
theorem nodup_keyEnds_declareForeignKey (h : e.keyEnds.Nodup) (name referenced : String)
    (b : Binding) (uses : List AnnotationUse) :
    (e.declareForeignKey name referenced b uses).1.keyEnds.Nodup := by
  rcases foreignKeys_declareForeignKey e name referenced b uses with
    ⟨before, joined, after, hkeys, -, hresult⟩ | ⟨hnew, hresult⟩
  · have hends : (e.declareForeignKey name referenced b uses).1.keyEnds = e.keyEnds := by
      rw [keyEnds, keyEnds, hresult, hkeys]
      simp [ForeignKey.addBinding]
    rw [hends]
    exact h
  · rw [keyEnds, hresult, List.map_append, List.map_singleton, List.nodup_middle, List.append_nil,
      List.nodup_cons]
    refine ⟨fun hmem => ?_, h⟩
    obtain ⟨fk, hfk, heq⟩ := List.mem_map.1 hmem
    rw [Prod.mk.injEq] at heq
    exact hnew fk hfk heq

/-- Built by statements: the keys differ in their names or targets. -/
structure IsStated (e : Entity) : Prop extends e.IsBuilt where
  nodup_keyEnds : e.keyEnds.Nodup

end Entity

end EntityModel
