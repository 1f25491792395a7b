import JvmDiff.ClassFile.Read
import JvmDiff.ClassFilter
import JvmDiff.DirEntry
import JvmDiff.Snapshot.Basic

/-!
# Loading a snapshot

All class files below a directory are read, in the order of their paths.  A file that cannot be
read, or that is no class file, is a failure of its own; only a directory that cannot be listed
makes loading fail as a whole.
-/

namespace JvmDiff

/-- A class file below the root of a snapshot. -/
structure ClassFilePath where
  /-- The names of the directories around the file, the outermost first. -/
  directories : List String
  fileName : String
deriving DecidableEq, Repr

namespace ClassFilePath

/-- The ending of the name of a class file, behind the dot. -/
def ending : List Char :=
  ".class".toList

/-- The name without its ending, if it has the ending and something before it. -/
def stem? (fileName : String) : Option String :=
  let chars := fileName.toList
  let stem := chars.take (chars.length - ending.length)
  if stem ≠ [] ∧ chars = stem ++ ending then some (String.ofList stem) else none

/-- A path is a class file by its name. -/
def isClassFile (fileName : String) : Bool :=
  (stem? fileName).isSome

/-- The last part of the class name; a stem of one dot stands for the directory
above. -/
def baseName (fileName : String) : String :=
  match stem? fileName with
  | some "." => ".."
  | some stem => stem
  | none => fileName

/-- The name of the class that the path stands for. -/
def className (path : ClassFilePath) : String :=
  ".".intercalate (path.directories ++ [baseName path.fileName])

/-- The names of the path. -/
def names (path : ClassFilePath) : List String :=
  path.directories ++ [path.fileName]

/-- A place below the root as it is shown, with the root in front. -/
def below (root : String) : List String → String
  | [] => root
  | names =>
      root ++ (if root.toList.getLast? = some '/' then "" else "/") ++ "/".intercalate names

def display (root : String) (path : ClassFilePath) : String :=
  below root path.names

def namesLe : List String → List String → Bool
  | [], _ => true
  | _ :: _, [] => false
  | first :: restFirst, second :: restSecond =>
      if first = second then namesLe restFirst restSecond else Text.le first second

def le (first second : ClassFilePath) : Bool :=
  namesLe first.names second.names

end ClassFilePath

/-- A class file with the outcome of reading its bytes. -/
structure ClassFileEntry where
  path : ClassFilePath
  bytes : Except AccessFault (List UInt8)

/-- A directory that cannot be listed, by the names that lead to it. -/
structure ListingFault where
  directories : List String
  fault : AccessFault
deriving DecidableEq, Repr

mutual

/-- The class files at an entry, which stands in the directories under the name. -/
def classFilesAt (directories : List String) (name : String) :
    DirEntry → Except ListingFault (List ClassFileEntry)
  | .directory entries => classFilesIn (directories ++ [name]) entries
  | .unlistable fault => .error ⟨directories ++ [name], fault⟩
  | .file bytes =>
      if ClassFilePath.isClassFile name then .ok [⟨⟨directories, name⟩, .ok bytes⟩] else .ok []
  | .unreadable fault =>
      if ClassFilePath.isClassFile name then .ok [⟨⟨directories, name⟩, .error fault⟩]
      else .ok []

/-- The class files at the entries of a directory. -/
def classFilesIn (directories : List String) :
    List (String × DirEntry) → Except ListingFault (List ClassFileEntry)
  | [] => .ok []
  | (name, entry) :: entries => do
      let first ← classFilesAt directories name entry
      let rest ← classFilesIn directories entries
      return first ++ rest

end

/-- The outcome of loading each class file below a root. -/
structure Loading where
  root : String
  sources : List Source
  failures : List LoadFailure
deriving DecidableEq, Repr

namespace Loading

/-- The operation that a problem of loading names. -/
def operation : String :=
  "load_snapshot"

/-- A problem of the file system at a path. -/
def ioProblem (path message : String) : Problem where
  kind := .io
  operation := some operation
  path := some path
  message := message

/-- The failure to load a class file. -/
def failure (root : String) (path : ClassFilePath) (reason errorCode : String) : LoadFailure where
  className := path.className
  path := path.display root
  reason := reason
  errorCode := errorCode

/-- What a problem says as the reason of a failure. -/
def reason (problem : Problem) : String :=
  if problem.message = "" then problem.display else problem.message

def loadEntry (root : String) (entry : ClassFileEntry) : Except LoadFailure Source :=
  match entry.bytes with
  | .error fault => .error (failure root entry.path fault.message ProblemKind.io.code)
  | .ok bytes =>
      match ClassFile.readClass bytes with
      | .error problem =>
          .error (failure root entry.path (reason problem) problem.kind.code)
      | .ok content => .ok ⟨entry.path.display root, content⟩

/-- The class files that the filter admits, in the order of their paths. -/
def candidates (filter : ClassFilter) (entries : List ClassFileEntry) : List ClassFileEntry :=
  (entries.mergeSort fun first second => first.path.le second.path).filter fun entry =>
    filter.admits entry.path.className

def ofEntries (root : String) (filter : ClassFilter) (entries : List ClassFileEntry) : Loading :=
  let outcomes := (candidates filter entries).map (loadEntry root)
  { root := root
    sources := outcomes.filterMap fun outcome => outcome.toOption
    failures := outcomes.filterMap fun outcome =>
      match outcome with
      | .error failure => some failure
      | .ok _ => none }

/-- Loads what stands at the root, which has to be a directory. -/
def ofRoot (root : String) (filter : ClassFilter) : Option DirEntry → Except Problem Loading
  | some (.directory entries) =>
      match classFilesIn [] entries with
      | .error ⟨directories, fault⟩ =>
          .error (ioProblem (ClassFilePath.below root directories) fault.message)
      | .ok found => .ok (ofEntries root filter found)
  | some (.unlistable fault) => .error (ioProblem root fault.message)
  | _ => .error (ioProblem root "snapshot root is not a directory")

def snapshot (loading : Loading) : Snapshot :=
  Snapshot.ofSources loading.root loading.sources loading.failures

end Loading

/-- Loads the snapshot that stands at the root. -/
def Snapshot.load (root : String) (filter : ClassFilter) (entry : Option DirEntry) :
    Except Problem Snapshot :=
  (Loading.ofRoot root filter entry).map Loading.snapshot

end JvmDiff
