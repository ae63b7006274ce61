import EntityModel.Config
import EntityModel.Entity.Assembly
import EntityModel.Entity.OfTable
import EntityModel.FileTree
import EntityModel.Model.Collection
import EntityModel.Model.KeyNames

/-!
# Compilation

From sources or from a schema to a model. Every source or table yields an entity or diagnostics;
then foreign keys are completed, links are added, and the names of foreign keys are checked. Not
one of these steps stops at what the steps before it have found.
-/

namespace EntityModel

structure Compilation where
  model : Model
  diagnostics : Diagnostics
deriving DecidableEq

namespace Compilation

def isValid (c : Compilation) : Bool := c.diagnostics.isEmpty

def result (c : Compilation) : Except Diagnostics Model := c.diagnostics.result c.model

def ofCollection [Naming] (directions : LinkDirections) (suffix : String) (c : Collection) :
    Compilation :=
  let (built, found) := c.build
  let (model, dangling) := built.resolveLinks directions suffix
  ⟨model, found ++ dangling ++ model.checkKeyNames⟩

end Compilation

namespace Source

/-- The name of the entity that a source defines: the declared one, else the suggested one. -/
def entityName (s : Source) (declared? : Option String) : Except SyntaxError String :=
  match declared? <|> s.nameHint? with
  | none => .error ⟨s.label, 1, .missingEntityName⟩
  | some name =>
      if Text.isEntityName name.toList then .ok name
      else .error ⟨s.label, 1, .invalidEntityName name⟩

def nameMismatch (s : Source) (declared? : Option String) : Diagnostics :=
  match declared?, s.nameHint? with
  | some declared, some hint =>
      if declared = hint then []
      else [⟨declared, none, none, .nameMismatch declared hint⟩]
  | _, _ => []

def readEntity (s : Source) (config : Config) : Except SyntaxError (Entity × Diagnostics) := do
  let definition ← Definition.ofText s.label s.text
  let name ← s.entityName definition.declaredName?
  let (entity, found) := Entity.ofStatements name definition.statements
  let mismatch := if config.requireNameMatch then s.nameMismatch definition.declaredName? else []
  return (entity, found ++ mismatch)

end Source

def Collection.addSource (config : Config) (c : Collection) (s : Source) : Collection :=
  match s.readEntity config with
  | .ok result => c.addReported result
  | .error e => c.report [.ofSyntaxError e]

def Collection.addTable [Naming] (c : Collection) (t : Table) : Collection :=
  c.addReported (Entity.ofTable t)

def compileSources [Naming] (config : Config) (sources : List Source) : Compilation :=
  .ofCollection .all config.listSuffix (sources.foldl (Collection.addSource config) .empty)

def compileText [Naming] (fileName text : String) : Compilation :=
  compileSources .default [.named fileName text]

def compilePaths [Naming] (tree : FileTree) (config : Config) (paths : List String) :
    Except ReadError Compilation := do
  return compileSources config (← paths.mapM tree.readSource)

def compileSchema [Naming] (config : Config) (schema : Schema) : Compilation :=
  .ofCollection config.links config.listSuffix (schema.tables.foldl Collection.addTable .empty)

end EntityModel
