import EntityModel.Model.Links

/-!
# Configuration

What a compilation can be told: which links a schema gets, what the names of collections end in,
and whether a declared entity name must agree with its file name.
-/

namespace EntityModel

structure Config where
  links : LinkDirections
  listSuffix : String
  requireNameMatch : Bool
deriving Repr, DecidableEq

def Config.default : Config := ⟨.all, defaultListSuffix, true⟩

end EntityModel
