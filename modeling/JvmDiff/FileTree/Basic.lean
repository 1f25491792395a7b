import JvmDiff.DirEntry

/-!
# Trees of files

A tree of files is a working directory with all that is in it: directories, files and symbolic
links.  A place in the tree is the list of names that lead to it from the working directory; a
path is a text that names a place and may go through links.
-/

namespace JvmDiff

/-- A directory, a file or a symbolic link. -/
inductive FileTree where
  | file (bytes : List UInt8)
  | link (target : String)
  | directory (entries : List (String × FileTree))
deriving Repr

namespace FileTree

/-- A working directory with nothing in it. -/
def empty : FileTree :=
  .directory []

/-- The names that lead to a place. -/
abbrev Place := List String

/-- What stands under a name among entries. -/
def child? (name : String) (entries : List (String × FileTree)) : Option FileTree :=
  (entries.find? fun entry => entry.1 = name).map Prod.snd

def at? (tree : FileTree) : Place → Option FileTree
  | [] => some tree
  | name :: names =>
      match tree with
      | .directory entries => (child? name entries).bind fun node => node.at? names
      | _ => none

/-- The parts of a path between slashes. -/
def parts (path : String) : List String :=
  path.splitOn "/"

/-! ## Following paths -/

/-- Where following a path ends. -/
inductive Destination where
  | found (place : Place)
  /-- The directory at the place has no such name. -/
  | missing (place : Place) (name : String)
deriving DecidableEq, Repr

/-- Follows the parts of a path from a place on, at most so many links deep.  A
part that is empty or a dot stays at the place, which has to be a directory, and
two dots lead to the directory around it.  Nothing is known of what lies outside
the working directory. -/
def follow (tree : FileTree) (links : Nat) (place : Place) (path : List String) :
    Except AccessFault Destination :=
  match path with
  | [] => .ok (.found place)
  | part :: rest =>
      match tree.at? place with
      | some (.directory entries) =>
          if part = "" ∨ part = "." then tree.follow links place rest
          else if part = ".." then tree.follow links place.dropLast rest
          else
            match child? part entries with
            | none => if rest = [] then .ok (.missing place part) else .error .notFound
            | some (.link target) =>
                match links with
                | 0 => .error .tooManyLinks
                | fewer + 1 =>
                    if target.toList.head? = some '/' then .error .notFound
                    else tree.follow fewer place (parts target ++ rest)
            | some _ => tree.follow links (place ++ [part]) rest
      | some _ => .error .notDirectory
      | none => .error .notFound
termination_by (links, path.length)

/-- The number of links that the system follows for one path. -/
def maxLinks : Nat :=
  40

/-- Follows a path from a directory on. -/
def followFrom (tree : FileTree) (place : Place) (path : String) :
    Except AccessFault Destination :=
  if path = "" ∨ path.toList.head? = some '/' then .error .notFound
  else tree.follow maxLinks place (parts path)

/-- The place that a path names. -/
def place (tree : FileTree) (start : Place) (path : String) : Except AccessFault Place :=
  match tree.followFrom start path with
  | .ok (.found place) => .ok place
  | .ok (.missing _ _) => .error .notFound
  | .error fault => .error fault

/-! ## Reading -/

/-- The bytes of the file that a path names. -/
def readFrom (tree : FileTree) (start : Place) (path : String) :
    Except AccessFault (List UInt8) :=
  match tree.place start path with
  | .error fault => .error fault
  | .ok place =>
      match tree.at? place with
      | some (.file bytes) => .ok bytes
      | some (.directory _) => .error .isDirectory
      | _ => .error .notFound

/-- The bytes of the file that a path names in the working directory. -/
def read (tree : FileTree) (path : String) : Except AccessFault (List UInt8) :=
  tree.readFrom [] path

/-- The path names a file, perhaps through links. -/
def isFile (tree : FileTree) (path : String) : Bool :=
  match tree.place [] path with
  | .ok place =>
      match tree.at? place with
      | some (.file _) => true
      | _ => false
  | .error _ => false

mutual

/-- What a walk through the tree finds at a place, where the node stands.  Links
are read but not walked through. -/
def dirEntry (tree : FileTree) (place : Place) : FileTree → DirEntry
  | .file bytes => .file bytes
  | .link _ =>
      match tree.readFrom place.dropLast (place.getLast?.getD "") with
      | .ok bytes => .file bytes
      | .error fault => .unreadable fault
  | .directory entries => .directory (dirEntries tree place entries)

/-- What a walk finds under the entries of the directory at a place. -/
def dirEntries (tree : FileTree) (place : Place) :
    List (String × FileTree) → List (String × DirEntry)
  | [] => []
  | (name, node) :: entries =>
      (name, dirEntry tree (place ++ [name]) node) :: dirEntries tree place entries

end

/-- What a path names, links on the way to it followed. -/
def resolve? (tree : FileTree) (path : String) : Option DirEntry :=
  match tree.place [] path with
  | .ok place => (tree.at? place).map (dirEntry tree place)
  | .error _ => none

end FileTree

end JvmDiff
