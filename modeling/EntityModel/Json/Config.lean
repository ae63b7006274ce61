import EntityModel.Config
import EntityModel.Json

/-!
# JSON form of the configuration

Every member may be missing and then has its default.
-/

namespace EntityModel

open Json (memberD)

def LinkDirections.ofJson? (j : Json) : Option LinkDirections := do
  let ms ← j.members?
  return {
    manyToOne := ← memberD ms "many_to_one" LinkDirections.all.manyToOne Json.bool?
    oneToMany := ← memberD ms "one_to_many" LinkDirections.all.oneToMany Json.bool?
    manyToMany := ← memberD ms "many_to_many" LinkDirections.all.manyToMany Json.bool? }

def Config.ofJson? (j : Json) : Option Config := do
  let ms ← j.members?
  return {
    links := ← memberD ms "links" Config.default.links LinkDirections.ofJson?
    listSuffix := ← memberD ms "list_suffix" Config.default.listSuffix Json.string?
    requireNameMatch :=
      ← memberD ms "require_file_name_match" Config.default.requireNameMatch Json.bool? }

end EntityModel
