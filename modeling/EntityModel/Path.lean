/-!
# Paths

A path is a run of components between slashes. Empty components and single points say nothing.
A file name has a stem: what stands before its last point, or the whole name if nothing does.
-/

namespace EntityModel.Path

def splitAt (separator : Char) : List Char → List (List Char)
  | [] => [[]]
  | c :: rest =>
      if c = separator then [] :: splitAt separator rest
      else
        match splitAt separator rest with
        | [] => [[c]]
        | piece :: more => (c :: piece) :: more

def pieces (path : String) : List String := (splitAt '/' path.toList).map String.ofList

def isIdle (piece : String) : Bool := piece == "" || piece == "."

def components (path : String) : List String := (pieces path).filter fun p => !isIdle p

def fileName? (path : String) : Option String :=
  (components path).getLast?.filter fun name => name ≠ ".."

def stem (name : String) : String :=
  match name.toList.reverse.dropWhile (· != '.') with
  | _ :: before@(_ :: _) => String.ofList before.reverse
  | _ => name

end EntityModel.Path
