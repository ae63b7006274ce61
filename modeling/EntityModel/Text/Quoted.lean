import EntityModel.Text.Blank

/-!
# Quoted spans

A span opens at a single or double quote and closes at the next quote of the same kind. A value
list is cut at the commas outside all spans; each value is trimmed and loses a quote of one kind
that stands at both of its ends.
-/

namespace EntityModel.Text

def isQuote (c : Char) : Bool := c == '\'' || c == '"'

def quoteAfter : Option Char → Char → Option Char
  | some q, c => if c = q then none else some q
  | none, c => if isQuote c then some c else none

theorem isQuote_of_mem_quoteAfter {open? : Option Char} (h : ∀ q ∈ open?, isQuote q = true)
    (c : Char) : ∀ q ∈ quoteAfter open? c, isQuote q = true := by
  intro q hq
  cases open? with
  | none =>
      rw [quoteAfter] at hq
      split at hq
      · rename_i hc
        rwa [← Option.some.inj hq]
      · cases hq
  | some q' =>
      rw [quoteAfter] at hq
      split at hq
      · cases hq
      · exact h q hq

theorem quoteAfter_of_not_isQuote {q c : Char} (hq : isQuote q = true) (hc : isQuote c = false) :
    quoteAfter (some q) c = some q := by
  rw [quoteAfter, if_neg]
  rintro rfl
  rw [hq] at hc
  cases hc

def openQuote (cs : List Char) : Option Char := cs.foldl quoteAfter none

/-- Cuts a text at the commas that no span holds; `open?` is the quote open at its start. -/
def cutAtCommas (open? : Option Char) : List Char → List (List Char)
  | [] => [[]]
  | c :: rest =>
      if open?.isNone && c == ',' then [] :: cutAtCommas none rest
      else
        match cutAtCommas (quoteAfter open? c) rest with
        | [] => [[c]]
        | piece :: more => (c :: piece) :: more

def isDelimitedBy (q : Char) (cs : List Char) : Bool :=
  2 ≤ cs.length && cs.head? == some q && cs.getLast? == some q

/-- Drops the first and last character if both are single quotes, or both are double quotes. -/
def stripQuotes (cs : List Char) : List Char :=
  if isDelimitedBy '\'' cs || isDelimitedBy '"' cs then cs.tail.dropLast else cs

theorem stripQuotes_delimited {q : Char} (h : isQuote q = true) (cs : List Char) :
    stripQuotes (q :: (cs ++ [q])) = cs := by
  have hlast : (q :: (cs ++ [q])).getLast? = some q := by
    rw [← List.cons_append, List.getLast?_concat]
  have hq : q = '\'' ∨ q = '"' := by simpa [isQuote] using h
  rcases hq with rfl | rfl <;> simp [stripQuotes, isDelimitedBy, hlast]

end EntityModel.Text
