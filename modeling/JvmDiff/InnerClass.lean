import JvmDiff.Access
import JvmDiff.Entity

/-!
# Class entries

The name and the flags of a class, as an entry in the list of inner classes of another class or
in the list of classes of a package.
-/

namespace JvmDiff

structure InnerClass where
  name : String
  access : Access
deriving DecidableEq, Repr

namespace InnerClass

/-- The entry with the dotted form of the name. -/
def ofName (name : String) (access : Access) : InnerClass :=
  ⟨Text.dotted name, access⟩

def content (entry : InnerClass) : String :=
  "IC\x7bN=" ++ entry.name ++ "#D=" ++ toString entry.access.raw ++ "\x7d"

instance : Entity InnerClass where
  name := InnerClass.name
  content := content

end InnerClass

end JvmDiff
