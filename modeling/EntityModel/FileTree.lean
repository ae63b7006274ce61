import EntityModel.Source

/-!
# Reading sources from files

A tree of files and directories, and what comes of reading a path in it. A path is followed
piece by piece; only a directory can be followed further.
-/

namespace EntityModel

inductive FileEntry where
  | file (content : ByteArray)
  | directory

/-- Entries by their components. What lies above an entry is a directory. -/
structure FileTree where
  entries : List (List String × FileEntry)

inductive ReadFault where
  | notFound
  | notADirectory
  | isADirectory
  | notText
deriving Repr, DecidableEq

structure ReadError where
  path : String
  fault : ReadFault
deriving Repr, DecidableEq

def ReadError.message (e : ReadError) : String :=
  match e.fault with
  | .notFound => "file not found: " ++ e.path
  | .notADirectory => "cannot read " ++ e.path ++ ": Not a directory (os error 20)"
  | .isADirectory => "cannot read " ++ e.path ++ ": Is a directory (os error 21)"
  | .notText => "cannot read " ++ e.path ++ ": stream did not contain valid UTF-8"

namespace FileTree

def entry? (t : FileTree) (place : List String) : Option FileEntry :=
  match t.entries.lookup place with
  | some entry => some entry
  | none =>
      if place.isEmpty || t.entries.any fun e => place.isPrefixOf e.1 then some .directory else none

def follow (t : FileTree) (place : List String) : List String → Except ReadFault FileEntry
  | [] => (t.entry? place).elim (.error .notFound) .ok
  | piece :: rest =>
      match t.entry? place with
      | none => .error .notFound
      | some (.file _) => .error .notADirectory
      | some .directory =>
          if Path.isIdle piece then t.follow place rest
          else if piece = ".." then t.follow place.dropLast rest
          else t.follow (place ++ [piece]) rest

def readText (t : FileTree) (path : String) : Except ReadFault String :=
  if path.isEmpty then .error .notFound
  else
    match t.follow [] (Path.pieces path) with
    | .error fault => .error fault
    | .ok .directory => .error .isADirectory
    | .ok (.file content) => (String.fromUTF8? content).elim (.error .notText) .ok

def readSource (t : FileTree) (path : String) : Except ReadError Source :=
  match t.readText path with
  | .ok text => .ok ⟨Path.fileName? path, text⟩
  | .error fault => .error ⟨path, fault⟩

end FileTree

end EntityModel
