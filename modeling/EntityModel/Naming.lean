import EntityModel.Text.Words

/-!
# Naming

How the names of a model are made: the name of an entity from the name of its table, and the
name of a field from the name of a column or of the entity that the field leads to. All that
depends on these names takes the convention as a parameter.
-/

namespace EntityModel

class Naming where
  entityName : String → String
  fieldName : String → String

namespace Naming

instance standard : Naming := ⟨Text.pascalCase, Text.camelCase⟩

end Naming

def entityNameOf [Naming] (table : String) : String := Naming.entityName table

def attributeNameOf [Naming] (column : String) : String := Naming.fieldName column

end EntityModel
