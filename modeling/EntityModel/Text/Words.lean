import EntityModel.Text.CaseMap
import EntityModel.Text.Cluster

/-!
# Words and compound names

A name is cut into words at separators (which go away) and where letter case or digits change.
From its words a compound name is written in Pascal case or in camel case. A word may be empty:
the first word of a name that starts with an underscore is.
-/

namespace EntityModel.Text

def isUpperCluster (g : List Char) : Bool := upper g != lower g && g == upper g

def isLowerCluster (g : List Char) : Bool := upper g != lower g && g == lower g

def isDigitCluster (g : List Char) : Bool := g.all Char.isDigit

def isSeparatorCluster (g : List Char) : Bool := g == ['_'] || g == ['-'] || g == [' ']

/-- Whether a word ends between a cluster and the clusters after it: at a change between lower
case, upper case and digits, except from upper to lower, and before the last of several capitals
if lower case follows it. -/
def endsWord (g : List Char) : List (List Char) → Bool
  | [] => false
  | h :: rest =>
      isLowerCluster g && (isUpperCluster h || isDigitCluster h) ||
      isUpperCluster g && isDigitCluster h ||
      isDigitCluster g && (isLowerCluster h || isUpperCluster h) ||
      isUpperCluster g && isUpperCluster h && rest.head?.any isLowerCluster

def wordsOfClusters : List (List Char) → List (List Char)
  | [] => [[]]
  | g :: rest =>
      if isSeparatorCluster g then [] :: wordsOfClusters rest
      else if endsWord g rest then g :: wordsOfClusters rest
      else
        match wordsOfClusters rest with
        | [] => [g]
        | word :: more => (g ++ word) :: more

def words (cs : List Char) : List (List Char) :=
  if cs.isEmpty then [] else wordsOfClusters (clusters cs)

def capitalized : List Char → List Char
  | [] => []
  | c :: rest => upperChar c ++ lower rest

def pascalCase (s : String) : String :=
  String.ofList ((words s.toList).flatMap capitalized)

def camelCase (s : String) : String :=
  match words s.toList with
  | [] => ""
  | word :: more => String.ofList (lower word ++ more.flatMap capitalized)

end EntityModel.Text
