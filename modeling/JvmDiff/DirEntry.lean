/-!
# Directory entries

What a program finds when it walks through a directory: directories with their own entries, and
everything else with what reading it gives.
-/

namespace JvmDiff

/-- Why the system refuses to read something. -/
inductive AccessFault where
  | notFound
  | notDirectory
  | isDirectory
  | tooManyLinks
  /-- Any other fault, with its wording. -/
  | other (message : String)
deriving DecidableEq, Repr

namespace AccessFault

/-- The wording of a fault, with its number. -/
def message : AccessFault → String
  | .notFound => "No such file or directory (os error 2)"
  | .notDirectory => "Not a directory (os error 20)"
  | .isDirectory => "Is a directory (os error 21)"
  | .tooManyLinks => "Too many levels of symbolic links (os error 40)"
  | .other message => message

end AccessFault

/-- What stands under a name in a directory. -/
inductive DirEntry where
  /-- Reading it gives bytes. -/
  | file (bytes : List UInt8)
  /-- It is no directory, and reading it fails. -/
  | unreadable (fault : AccessFault)
  /-- A directory, its entries in the order in which the system lists them. -/
  | directory (entries : List (String × DirEntry))
  /-- A directory that cannot be listed. -/
  | unlistable (fault : AccessFault)
deriving Repr

namespace DirEntry

def read : DirEntry → Except AccessFault (List UInt8)
  | .file bytes => .ok bytes
  | .unreadable fault => .error fault
  | .directory _ => .error .isDirectory
  | .unlistable _ => .error .isDirectory

end DirEntry

end JvmDiff
