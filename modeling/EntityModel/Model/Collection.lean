import EntityModel.Model.Bindings

/-!
# Collecting a model

Entities are collected one after the other, together with what is wrong with them. The first
entity of a name stays. When all are there, the foreign keys are completed.
-/

namespace EntityModel

structure Collection where
  model : Model
  diagnostics : Diagnostics
deriving DecidableEq

namespace Collection

def empty : Collection := ⟨.empty, []⟩

def report (c : Collection) (ds : Diagnostics) : Collection :=
  { c with diagnostics := c.diagnostics ++ ds }

/-- Adds an entity; a second one of the same name is dropped and reported. -/
def add (c : Collection) (e : Entity) : Collection :=
  match c.model.add? e with
  | some model => { c with model := model }
  | none => c.report [⟨e.name, none, none, .duplicateEntity e.name⟩]

def addReported (c : Collection) (e : Entity × Diagnostics) : Collection := (c.report e.2).add e.1

def build (c : Collection) : Model × Diagnostics :=
  let (model, ds) := c.model.complete
  (model, c.diagnostics ++ ds)

end Collection

end EntityModel
