import EntityModel.Text.Cluster.Table

/-!
# Grapheme clusters

A cluster is a character together with the marks that join it. Two neighbours belong together by
what the two of them are. Hangul syllables, flags and joined pictographs stay apart here: their
members are neither cased nor digits, so the words of a text are the same either way.
-/

namespace EntityModel.Text

def isIsolated (c : Char) : Bool := isolatedRanges.contains c.toNat

def joins (a b : Char) : Bool :=
  a == '\r' && b == '\n' ||
    !isIsolated a && !isIsolated b &&
      (attachingRanges.contains b.toNat || prependingRanges.contains a.toNat)

def clusters : List Char → List (List Char)
  | [] => []
  | a :: rest =>
      match clusters rest with
      | (b :: cluster) :: more =>
          if joins a b then (a :: b :: cluster) :: more else [a] :: (b :: cluster) :: more
      | more => [a] :: more

end EntityModel.Text
