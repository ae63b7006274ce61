import EntityModel.Annotations.Check

/-!
# Reading annotations and tags

An annotation is an entry, after an at sign if there is one, with a name of the registry. A tag
is an entry after a number sign, with any name and at most one value.
-/

namespace EntityModel

def AnnotationUse.ofEntry (e : Entry) (line? : Option Nat) : Except AnnotationFault AnnotationUse :=
  match AnnotationKind.ofName? e.name with
  | none => .error (.unknown e.name)
  | some kind => do
      let values ← e.values.mapError (.values kind.name)
      let arguments ← Arguments.ofValues kind values
      kind.check arguments
      return ⟨kind, arguments, line?⟩

def AnnotationUse.ofText (text : String) (line? : Option Nat) :
    Except AnnotationFault AnnotationUse := do
  let e ← (Entry.ofMarked '@' text.toList).mapError .entry
  AnnotationUse.ofEntry e line?

structure TagUse where
  name : String
  value? : Option String
  line? : Option Nat
deriving Repr, DecidableEq

def TagUse.ofEntry (e : Entry) (line? : Option Nat) : Except AnnotationFault TagUse := do
  match ← e.values.mapError (.values ("#" ++ e.name)) with
  | [] => return ⟨e.name, none, line?⟩
  | [value] => return ⟨e.name, some value, line?⟩
  | _ => .error (.tagValues e.name)

def TagUse.ofText (text : String) (line? : Option Nat) : Except AnnotationFault TagUse := do
  let e ← (Entry.ofMarked '#' text.toList).mapError .entry
  TagUse.ofEntry e line?

end EntityModel
