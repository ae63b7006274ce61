import EntityModel.Compilation
import EntityModel.Json.Config
import EntityModel.Json.Diagnostic
import EntityModel.Json.Model
import EntityModel.Json.Table
import EntityModel.Proofs.Annotations.StoredValues
import EntityModel.Proofs.Annotations.Unquoting
import EntityModel.Proofs.Compilation.AnnotationScopes
import EntityModel.Proofs.Compilation.Closure
import EntityModel.Proofs.Compilation.ConsistentSchemas
import EntityModel.Proofs.Compilation.DefaultKeys
import EntityModel.Proofs.Compilation.FieldNames
import EntityModel.Proofs.Compilation.FrontEnds
import EntityModel.Proofs.Compilation.QuotedValues
import EntityModel.Proofs.Compilation.SourceOrder
import EntityModel.Proofs.Entity.Accounting
import EntityModel.Proofs.Entity.DeclaredKeys
import EntityModel.Proofs.Entity.EntryLines
import EntityModel.Proofs.Entity.MergedKeys
import EntityModel.Proofs.Json.MemberOrder
import EntityModel.Proofs.Model.AmbiguousKeys
import EntityModel.Proofs.Model.CompletionEffect
import EntityModel.Proofs.Model.Coverage
import EntityModel.Proofs.ParamBag
import EntityModel.Proofs.Statement.Comments
import EntityModel.Proofs.Statement.DeclarationFaults
import EntityModel.Proofs.Statement.DeclaredName
import EntityModel.Proofs.Statement.Grammar
import EntityModel.Proofs.Statement.Layout
import EntityModel.Proofs.Statement.ParameterLists
import EntityModel.Proofs.Statement.Registers
import EntityModel.Proofs.Statement.RoundTrip
import EntityModel.Proofs.Statement.Shape
import EntityModel.Proofs.Statement.StartLines
import EntityModel.Proofs.Statement.Streaming
