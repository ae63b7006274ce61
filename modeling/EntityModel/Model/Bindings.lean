import EntityModel.Diagnostic
import EntityModel.Model

/-!
# Completing foreign keys

A binding that leaves its referenced attribute open is completed by position: the i-th binding
of its key stands for the i-th key attribute of the referenced entity. References that cannot be
right are reported. Foreign keys to entities outside the model stay as they are.
-/

namespace EntityModel

/-- Completes a binding of the key named `keyName` to `referenced`, which the model knows under
`target`; the problem, if there is one, concerns this binding. -/
def Binding.complete (keyName target : String) (referenced : Entity) (position : Nat)
    (b : Binding) : Binding × Option Problem :=
  match b.referenced?, referenced.keyAttributes[position]? with
  | some name, _ =>
      (b, if (referenced.attribute? name).isSome then none
        else some (.unknownAttribute keyName target name))
  | none, some a => ({ b with referenced? := some a.name }, none)
  | none, none =>
      (b, some (if referenced.keyAttributes.isEmpty then .keylessEntity keyName target
        else .moreColumns keyName target))

def completeBindings (keyName target : String) (referenced : Entity) :
    Nat → List Binding → List (Binding × Option Problem)
  | _, [] => []
  | position, b :: rest =>
      b.complete keyName target referenced position ::
        completeBindings keyName target referenced (position + 1) rest

namespace ForeignKey

def complete (fk : ForeignKey) (referenced : Entity) : ForeignKey × List (String × Problem) :=
  let completed := completeBindings fk.name fk.referenced referenced 0 fk.bindings
  let faulty := completed.filterMap fun (b, problem?) => problem?.map fun p => (b.origin, p)
  let short :=
    if fk.isImplicit && fk.bindings.length < referenced.keyAttributes.length then
      fk.firstField?.toList.map fun field => (field, .fewerColumns fk.name fk.referenced)
    else []
  ({ fk with bindings := completed.map Prod.fst }, faulty ++ short)

def completeIn (m : Model) (fk : ForeignKey) : ForeignKey × List (String × Problem) :=
  match m.entity? fk.referenced with
  | some referenced => fk.complete referenced
  | none => (fk, [])

end ForeignKey

namespace Model

def completeEntity (m : Model) (e : Entity) : Entity :=
  { e with foreignKeys := e.foreignKeys.map fun fk => (fk.completeIn m).1 }

def completionProblems (m : Model) (e : Entity) : Diagnostics :=
  e.foreignKeys.flatMap fun fk =>
    (fk.completeIn m).2.map fun (field, problem) => ⟨e.name, some field, none, problem⟩

def complete (m : Model) : Model × Diagnostics :=
  (⟨m.entities.mapValues fun _ e => m.completeEntity e⟩, m.toList.flatMap m.completionProblems)

end Model

end EntityModel
