import JvmDiff.Digest
import JvmDiff.Text.Order

/-!
# Named entities with a canonical content

Every part of a class has a name, by which it is found again in another version of the class,
and a canonical content, a text that spells out all that counts in a comparison.  Two parts with
the same digest of their contents are taken to be the same.
-/

namespace JvmDiff

/-- A part of the model that can be named, spelled out and compared. -/
class Entity (α : Type) where
  name : α → String
  content : α → String

namespace Entity

variable {α : Type} [Entity α]

/-- The SHA-256 digest of the canonical content. -/
def hash (entity : α) : String :=
  Sha256.ofText (content entity)

/-- Entities compare by name, those of one name by content. -/
def le (first second : α) : Bool :=
  if name first = name second then
    Text.le (content first) (content second)
  else
    Text.le (name first) (name second)

/-- The entities in ascending order, so that the order of declaration does not
show. -/
def sorted (entities : List α) : List α :=
  entities.mergeSort le

/-- The contents of the entities in one list. -/
def contentList (entities : List α) : String :=
  Text.bracketed (entities.map content)

end Entity

/-- One labelled part of a canonical content, left out when there is nothing to
say. -/
def contentPart {α : Type} (label : String) (write : List α → String) : List α → String
  | [] => ""
  | parts => "#" ++ label ++ "=" ++ write parts

/-- One labelled text of a canonical content, left out when it is empty. -/
def contentText (label text : String) : String :=
  if text = "" then "" else "#" ++ label ++ "=" ++ text

end JvmDiff
