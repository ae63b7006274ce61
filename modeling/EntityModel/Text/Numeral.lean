/-!
# Numerals

Whole numbers are written in ASCII digits with an optional sign. A decimal numeral may have a
point and an exponent. A double holds it as a finite number if it is below the half-way point
between the greatest finite double and 2^1024.
-/

namespace EntityModel.Text

def digits? (cs : List Char) : Option Nat :=
  if cs.isEmpty || !cs.all Char.isDigit then none
  else some (cs.foldl (fun n c => 10 * n + (c.toNat - '0'.toNat)) 0)

def natural? : List Char → Option Nat
  | '+' :: cs => digits? cs
  | cs => digits? cs

def integer? : List Char → Option Int
  | '-' :: cs => (digits? cs).map fun n => -(n : Int)
  | cs => (natural? cs).map fun n => (n : Int)

/-- The magnitude `digits * 10 ^ exponent`. -/
structure Magnitude where
  digits : Nat
  exponent : Int
deriving Repr, DecidableEq

def exponent? : List Char → Option Int
  | [] => some 0
  | c :: cs => if c == 'e' || c == 'E' then integer? cs else none

/-- Digits before and after an optional point, at least one of them, then an exponent. -/
def magnitude? (cs : List Char) : Option Magnitude := do
  let whole := cs.takeWhile Char.isDigit
  match cs.dropWhile Char.isDigit with
  | '.' :: rest =>
      let fraction := rest.takeWhile Char.isDigit
      let digits ← digits? (whole ++ fraction)
      let exponent ← exponent? (rest.dropWhile Char.isDigit)
      return ⟨digits, exponent - fraction.length⟩
  | rest => return ⟨← digits? whole, ← exponent? rest⟩

/-- The least magnitude that a double rounds to infinity. -/
def overflowBound : Nat := Nat.pow 2 1024 - Nat.pow 2 970

def Magnitude.isFinite (m : Magnitude) : Bool :=
  if m.digits = 0 then true
  else
    let width := (Nat.toDigits 10 m.digits).length + m.exponent
    if width < 309 then true
    else if 309 < width then false
    else m.digits * Nat.pow 10 m.exponent.toNat < overflowBound * Nat.pow 10 (-m.exponent).toNat

/-- A decimal numeral, with an optional sign, whose nearest double is finite. -/
def isFiniteNumeral (cs : List Char) : Bool :=
  let unsigned :=
    match cs with
    | '+' :: rest => rest
    | '-' :: rest => rest
    | _ => cs
  match magnitude? unsigned with
  | some m => m.isFinite
  | none => false

end EntityModel.Text
