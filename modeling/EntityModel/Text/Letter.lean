import EntityModel.Text.Letter.Table

/-!
# Letters, numerals and identifiers

An identifier is a non-empty run of alphanumeric characters and underscores. It may start with
a numeral; the name of an entity may not, nor with an underscore.
-/

namespace EntityModel.Text

def isAlphabetic (c : Char) : Bool := alphabeticRanges.contains c.toNat

def isNumeric (c : Char) : Bool := numericRanges.contains c.toNat

def isAlphanumeric (c : Char) : Bool := isAlphabetic c || isNumeric c

def isIdentifierChar (c : Char) : Bool := isAlphanumeric c || c == '_'

def isIdentifier (cs : List Char) : Bool := !cs.isEmpty && cs.all isIdentifierChar

def isEntityName : List Char → Bool
  | [] => false
  | c :: rest => isAlphabetic c && rest.all isIdentifierChar

theorem isIdentifier_of_isEntityName {cs : List Char} (h : isEntityName cs = true) :
    isIdentifier cs = true := by
  cases cs with
  | nil => simp [isEntityName] at h
  | cons c rest =>
      simp only [isEntityName, Bool.and_eq_true] at h
      simp only [isIdentifier, List.isEmpty_cons, Bool.not_false, Bool.true_and, List.all_cons,
        Bool.and_eq_true]
      exact ⟨by simp [isIdentifierChar, isAlphanumeric, h.1], h.2⟩

end EntityModel.Text
