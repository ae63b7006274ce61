import EntityModel.Text.CaseMap.Table

/-!
# Upper and lower case

Full case mappings, which may turn one character into several. Lower case depends on the
neighbours of one letter only: a capital sigma that ends a word becomes a final sigma.
-/

namespace EntityModel.Text

def mapCodePoint (rows : List (Nat × Nat × Nat × Int)) (n : Nat) : Nat :=
  match rows.find? fun (low, high, step, _) => low ≤ n && n ≤ high && (n - low) % step == 0 with
  | some (_, _, _, shift) => (n + shift).toNat
  | none => n

def mapChar (expansions : List (Nat × List Nat)) (rows : List (Nat × Nat × Nat × Int))
    (c : Char) : List Char :=
  match expansions.lookup c.toNat with
  | some ns => ns.map Char.ofNat
  | none => [Char.ofNat (mapCodePoint rows c.toNat)]

def upperChar (c : Char) : List Char :=
  if c.toNat < 0x80 then [c.toUpper] else mapChar upperExpansions upperRows c

def lowerChar (c : Char) : List Char :=
  if c.toNat < 0x80 then [c.toLower] else mapChar lowerExpansions lowerRows c

def isCased (c : Char) : Bool := casedRanges.contains c.toNat

def isCaseIgnorable (c : Char) : Bool := caseIgnorableRanges.contains c.toNat

def beginsCased (cs : List Char) : Bool := (cs.dropWhile isCaseIgnorable).head?.any isCased

def upper (cs : List Char) : List Char := cs.flatMap upperChar

/-- Lower case; `afterCased` says whether the last character that counts before it is cased. -/
def lowerFrom (afterCased : Bool) : List Char → List Char
  | [] => []
  | c :: rest =>
      (if c == 'Σ' then [if afterCased && !beginsCased rest then 'ς' else 'σ'] else lowerChar c) ++
        lowerFrom (if isCaseIgnorable c then afterCased else isCased c) rest

def lower (cs : List Char) : List Char := lowerFrom false cs

def asciiLower (s : String) : String := s.map Char.toLower

def asciiUpper (s : String) : String := s.map Char.toUpper

end EntityModel.Text
