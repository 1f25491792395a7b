import JvmDiff.FileTree.Basic

/-!
# Building a tree of files

Directories, files and links are put into a tree one after another.  Directories on the way to a
file or a link are made as they are needed.
-/

namespace JvmDiff.FileTree

/-- The entries with another node under the name, a new name at the end. -/
def putEntry (name : String) (node : FileTree) :
    List (String × FileTree) → List (String × FileTree)
  | [] => [(name, node)]
  | entry :: entries =>
      if entry.1 = name then (name, node) :: entries else entry :: putEntry name node entries

/-- The tree with a node put at a place; a place that is not below directories
changes nothing. -/
def put (tree : FileTree) (place : Place) (node : FileTree) : FileTree :=
  match place with
  | [] => node
  | name :: names =>
      match tree with
      | .directory entries =>
          match names, child? name entries with
          | [], _ => .directory (putEntry name node entries)
          | _ :: _, some child => .directory (putEntry name (child.put names node) entries)
          | _ :: _, none => tree
      | _ => tree

/-- The tree with a directory where the path ends, if nothing is there yet. -/
def makeDirectory (tree : FileTree) (path : String) : Except AccessFault FileTree :=
  match tree.followFrom [] path with
  | .error fault => .error fault
  | .ok (.missing place name) => .ok (tree.put (place ++ [name]) empty)
  | .ok (.found place) =>
      match tree.at? place with
      | some (.directory _) => .ok tree
      | _ => .error .notDirectory

/-- The beginnings of a list, except the empty one. -/
def beginnings : List String → List (List String)
  | [] => []
  | part :: rest => [part] :: (beginnings rest).map (part :: ·)

/-- The tree with all directories that the parts of a path lead through. -/
def makeDirectoriesAlong (tree : FileTree) (names : List String) :
    Except AccessFault FileTree :=
  (((beginnings names).map ("/".intercalate ·)).filter (· ≠ "")).foldlM makeDirectory tree

/-- The tree with all directories that the path names. -/
def makeDirectories (tree : FileTree) (path : String) : Except AccessFault FileTree :=
  tree.makeDirectoriesAlong (parts path)

/-- The tree with the directories around the last part of a path. -/
def makeParents (tree : FileTree) (path : String) : Except AccessFault FileTree :=
  tree.makeDirectoriesAlong (parts path).dropLast

/-- The tree with a file where the path ends. -/
def write (tree : FileTree) (path : String) (bytes : List UInt8) :
    Except AccessFault FileTree := do
  let tree ← tree.makeParents path
  match ← tree.followFrom [] path with
  | .missing place name => return tree.put (place ++ [name]) (.file bytes)
  | .found place =>
      match tree.at? place with
      | some (.directory _) => throw .isDirectory
      | _ => return tree.put place (.file bytes)

/-- The place of the directory around the last part of a path. -/
def parentPlace (tree : FileTree) (path : String) : Except AccessFault Place :=
  match (parts path).dropLast with
  | [] => .ok []
  | names => tree.place [] ("/".intercalate names)

/-- The tree with a link to the target at the path, where nothing may stand. -/
def makeLink (tree : FileTree) (path target : String) : Except AccessFault FileTree := do
  let tree ← tree.makeParents path
  let place ← tree.parentPlace path
  let place := place ++ [(parts path).getLast?.getD ""]
  match tree.at? place with
  | some _ => throw (.other "File exists (os error 17)")
  | none => return tree.put place (.link target)

end JvmDiff.FileTree
