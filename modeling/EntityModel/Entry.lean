import EntityModel.Text.Quoted

/-!
# Entries

The common syntax of annotations and tags: a name, and optionally a list of values in
parentheses. The list reaches from the first opening parenthesis to the end of the entry.
-/

namespace EntityModel

structure Entry where
  name : String
  parameters? : Option String
deriving Repr, DecidableEq

inductive EntryFault where
  | unclosed (text : String)
  | unnamed (text : String)
  | invalidName (text name : String)
deriving Repr, DecidableEq

def EntryFault.message : EntryFault → String
  | unclosed text => s!"'{text}' : missing ')'"
  | unnamed text => s!"'{text}' : missing name"
  | invalidName text name => s!"'{text}' : invalid name '{name}'"

inductive ValueFault where
  | empty
  | unterminated (text : String)
deriving Repr, DecidableEq

def ValueFault.message : ValueFault → String
  | empty => "empty parameter"
  | unterminated text => s!"unterminated quoted value in '{text}'"

namespace Entry

def isNameChar (c : Char) : Bool := c.isAlphanum || c == '_'

def checkName (text name : List Char) : Except EntryFault String :=
  if name.isEmpty then .error (.unnamed (String.ofList text))
  else if !name.all isNameChar then
    .error (.invalidName (String.ofList text) (String.ofList name))
  else .ok (String.ofList name)

def ofChars (cs : List Char) : Except EntryFault Entry :=
  let text := Text.trim cs
  match text.dropWhile (· != '(') with
  | [] => do return ⟨← checkName text text, none⟩
  | _ :: inner =>
      if inner.getLast? = some ')' then do
        let name ← checkName text (Text.trim (text.takeWhile (· != '(')))
        return ⟨name, some (String.ofList inner.dropLast)⟩
      else .error (.unclosed (String.ofList text))

def ofMarked (mark : Char) (cs : List Char) : Except EntryFault Entry :=
  let text := Text.trim cs
  ofChars (if text.head? = some mark then text.tail else text)

/-- The values of a parameter list: its pieces between unquoted commas, trimmed and without
their quotes. A blank list has none. The first fault from the left is reported. -/
def splitValues (cs : List Char) : Except ValueFault (List String) :=
  if Text.allBlank cs then .ok []
  else
    let pieces := Text.cutAtCommas none cs
    if pieces.dropLast.any Text.allBlank then .error .empty
    else if (Text.openQuote cs).isSome then .error (.unterminated (String.ofList cs))
    else if pieces.any Text.allBlank then .error .empty
    else .ok (pieces.map fun piece => String.ofList (Text.stripQuotes (Text.trim piece)))

def values (e : Entry) : Except ValueFault (List String) :=
  match e.parameters? with
  | some text => splitValues text.toList
  | none => .ok []

end Entry

end EntityModel
