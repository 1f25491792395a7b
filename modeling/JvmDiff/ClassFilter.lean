/-!
# Filters on class names

A filter admits the classes whose names start with one of the texts to include and with none of
the texts to exclude.
-/

namespace JvmDiff

/-- The beginnings of the names that count, all of them if none is given, and of
those that do not. -/
structure ClassFilter where
  included : List String := []
  excluded : List String := []
deriving DecidableEq, Repr

namespace ClassFilter

/-- The name starts with one of the texts. -/
def startsWithAny (name : String) (starts : List String) : Bool :=
  starts.any fun start => start.toList.isPrefixOf name.toList

/-- The filter admits the name; to exclude it wins over to include it. -/
def admits (filter : ClassFilter) (name : String) : Bool :=
  (filter.included.isEmpty || startsWithAny name filter.included) &&
    !startsWithAny name filter.excluded

end ClassFilter

end JvmDiff
