/-!
# JSON values

The values of the JSON format, with readers for the types that records are made of. A reader
accepts a value or fails; it never guesses. Members of an object are found by key, and members
that no reader asks for are ignored.
-/

namespace EntityModel

inductive Json where
  | null
  | bool (value : Bool)
  | integer (value : Int)
  -- written with `places` decimal places: `digits / 10 ^ places`
  | decimal (digits : Int) (places : Nat)
  | string (value : String)
  | array (items : List Json)
  | object (members : List (String × Json))
deriving Repr, Inhabited

namespace Json

variable {α : Type}

def bool? : Json → Option Bool
  | bool value => some value
  | _ => none

def string? : Json → Option String
  | string value => some value
  | _ => none

def integerIn? (low high : Int) : Json → Option Int
  | integer value => if low ≤ value ∧ value ≤ high then some value else none
  | _ => none

def naturalUpTo? (bound : Nat) (j : Json) : Option Nat := (j.integerIn? 0 bound).map Int.toNat

def line? : Json → Option Nat := naturalUpTo? (UInt64.size - 1)

def list? (read : Json → Option α) : Json → Option (List α)
  | array items => items.mapM read
  | _ => none

def members? : Json → Option (List (String × Json))
  | object members => some members
  | _ => none

def nullable? (read : Json → Option α) : Json → Option (Option α)
  | null => some none
  | j => (read j).map some

def member (members : List (String × Json)) (key : String) (read : Json → Option α) : Option α :=
  (members.lookup key).bind read

def member? (members : List (String × Json)) (key : String) (read : Json → Option α) :
    Option (Option α) :=
  match members.lookup key with
  | none => some none
  | some j => nullable? read j

def memberD (members : List (String × Json)) (key : String) (default : α)
    (read : Json → Option α) : Option α :=
  match members.lookup key with
  | none => some default
  | some j => read j

/-- A case of an enumeration: its name, or an object with its name alone before null. -/
def case? : Json → Option String
  | string name => some name
  | object [(name, null)] => some name
  | _ => none

def taggedCase? : Json → Option (String × Json)
  | object [(name, value)] => some (name, value)
  | _ => none

def named? [DecidableEq α] (all : List α) (name : α → String) (j : Json) : Option α :=
  j.case?.bind fun given => all.find? fun a => name a == given

def ofOption (write : α → Json) : Option α → Json
  | some a => write a
  | none => null

def ofString? (value? : Option String) : Json := ofOption string value?

def ofNat (n : Nat) : Json := integer n

def ofList (write : α → Json) (xs : List α) : Json := array (xs.map write)

theorem nullable?_of_ne_null {read : Json → Option α} {j : Json} (h : j ≠ null) :
    nullable? read j = (read j).map some := by
  cases j <;> first | rfl | exact absurd rfl h

theorem nullable?_ofOption {read : Json → Option α} {write : α → Json} {a? : Option α}
    (hnull : ∀ a, write a ≠ null) (h : ∀ a, a? = some a → read (write a) = some a) :
    nullable? read (ofOption write a?) = some a? := by
  cases a? with
  | none => rfl
  | some a => rw [ofOption, nullable?_of_ne_null (hnull a), h a rfl, Option.map_some]

theorem mapM_map_of_forall {β : Type} {read : β → Option α} {write : α → β} {xs : List α}
    (h : ∀ a ∈ xs, read (write a) = some a) : (xs.map write).mapM read = some xs := by
  induction xs with
  | nil => rfl
  | cons a xs ih =>
      have ha := h a List.mem_cons_self
      have hxs := ih fun b hb => h b (List.mem_cons_of_mem a hb)
      simp [List.mapM_cons, ha, hxs]

theorem list?_ofList {read : Json → Option α} {write : α → Json} {xs : List α}
    (h : ∀ a ∈ xs, read (write a) = some a) : list? read (ofList write xs) = some xs :=
  mapM_map_of_forall h

end Json

end EntityModel
