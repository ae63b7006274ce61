import EntityModel.OrderedMap

/-!
# Parameter bags

What annotations leave on an attribute, a link or an entity: values under keys, in one namespace
for each annotation. Namespaces and the keys within each keep the order of their first use.
-/

namespace EntityModel

inductive ParamValue where
  | flag (value : Bool)
  | text (value : String)
  | integer (value : Int64)
  | list (values : List String)
deriving Repr, DecidableEq

namespace ParamValue

def text? : ParamValue → Option String
  | text value => some value
  | _ => none

def integer? : ParamValue → Option Int64
  | integer value => some value
  | _ => none

def list? : ParamValue → Option (List String)
  | list values => some values
  | _ => none

end ParamValue

structure ParamBag where
  namespaces : OrderedMap String (OrderedMap String ParamValue)
deriving DecidableEq

namespace ParamBag

def empty : ParamBag := ⟨.empty⟩

def presenceKey : String := "exists"

def set (bag : ParamBag) (owner key : String) (value : ParamValue) : ParamBag :=
  ⟨bag.namespaces.insert owner (((bag.namespaces.find? owner).getD .empty).insert key value)⟩

def setFlag (bag : ParamBag) (owner : String) : ParamBag := bag.set owner presenceKey (.flag true)

def get? (bag : ParamBag) (owner key : String) : Option ParamValue :=
  (bag.namespaces.find? owner).bind fun space => space.find? key

def has (bag : ParamBag) (owner : String) : Bool := bag.namespaces.contains owner

def toList (bag : ParamBag) : List (String × String × ParamValue) :=
  bag.namespaces.entries.flatMap fun (owner, space) =>
    space.entries.map fun (key, value) => (owner, key, value)

def size (bag : ParamBag) : Nat :=
  bag.namespaces.values.foldr (fun space n => space.size + n) 0

def isEmpty (bag : ParamBag) : Bool := bag.namespaces.isEmpty

theorem get?_set (bag : ParamBag) (owner key : String) (value : ParamValue)
    (owner' key' : String) :
    (bag.set owner key value).get? owner' key' =
      if owner' = owner ∧ key' = key then some value else bag.get? owner' key' := by
  simp only [get?, set, OrderedMap.find?_insert]
  by_cases ho : owner' = owner
  · subst ho
    simp only [if_pos, Option.bind_some, OrderedMap.find?_insert, true_and]
    cases hs : bag.namespaces.find? owner' <;> simp
  · simp [ho]

end ParamBag

end EntityModel
