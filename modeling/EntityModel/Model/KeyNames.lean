import EntityModel.Diagnostic
import EntityModel.Model

/-!
# Names of foreign keys

A name should stand for one foreign key in the whole model. Every binding is an occurrence of
the name of its key; if two occurrences of a name differ in the declaring or in the referenced
entity, all occurrences of it are reported.
-/

namespace EntityModel

structure KeyOccurrence where
  keyName : String
  origin : String
  referenced : String
  field : String
  line? : Option Nat
deriving Repr, DecidableEq

namespace KeyOccurrence

def ends (o : KeyOccurrence) : String × String := (o.origin, o.referenced)

def ofName (os : List KeyOccurrence) (name : String) : List KeyOccurrence :=
  os.filter fun o => o.keyName == name

/-- Some occurrences of one name differ in their ends from the first one. -/
def isAmbiguous : List KeyOccurrence → Bool
  | [] => false
  | o :: rest => rest.any fun p => p.ends != o.ends

def diagnostic (o : KeyOccurrence) : Diagnostic :=
  ⟨o.origin, some o.field, o.line?, .ambiguousKeyName o.keyName o.referenced⟩

end KeyOccurrence

namespace Model

def keyOccurrences (m : Model) : List KeyOccurrence :=
  m.toList.flatMap fun e =>
    e.foreignKeys.flatMap fun fk =>
      fk.bindings.map fun b =>
        ⟨fk.name, e.name, fk.referenced, b.origin, (e.attribute? b.origin).bind Attribute.line?⟩

/-- Reports all occurrences of ambiguous names, the names in the order of their first
occurrence. -/
def checkKeyNames (m : Model) : Diagnostics :=
  let occurrences := m.keyOccurrences
  let names := (occurrences.map KeyOccurrence.keyName).eraseDups
  (names.map (KeyOccurrence.ofName occurrences)).flatMap fun group =>
    if KeyOccurrence.isAmbiguous group then group.map KeyOccurrence.diagnostic else []

end Model

end EntityModel
