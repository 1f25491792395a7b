import Std.Data.HashMap
import JvmDiff.Entity

/-!
# Matching two lists of named elements

Elements of an earlier and a later list are matched in two passes.  The first pairs elements with
equal fingerprints; they did not change.  The second pairs what is left by name; these elements
were modified.  What is left of the earlier list was removed, what is left of the later one was
added.  In both passes an element takes the first partner that is still free.

The free elements of the later list wait in one queue for each label, so that a pass needs one
look-up for each element.
-/

namespace JvmDiff

/-- How the elements of two lists correspond. -/
structure Matching (α : Type) where
  unchanged : List (α × α)
  modified : List (α × α)
  removed : List α
  added : List α
deriving Repr

namespace Matching

variable {α : Type}

/-- The free elements with their positions, in ascending order of these, for
each label. -/
abbrev Queues (α : Type) :=
  Std.HashMap String (List (α × Nat))

def queue (queues : Queues α) (label : String) : List (α × Nat) :=
  queues.getD label []

/-- The queues of the elements, each under its label. -/
def queuesOf (label : α → String) (elements : List (α × Nat)) : Queues α :=
  elements.foldr
    (fun element queues =>
      queues.insert (label element.1) (element :: queue queues (label element.1)))
    ∅

/-- The outcome of one pass. -/
structure Pass (α : Type) where
  pairs : List (α × α)
  /-- The elements that found no partner. -/
  alone : List α
  queues : Queues α

/-- Each element takes the first of the queue of its label. -/
def pass (label : α → String) : List α → Queues α → Pass α
  | [], queues => ⟨[], [], queues⟩
  | element :: elements, queues =>
      match queue queues (label element) with
      | [] =>
          let rest := pass label elements queues
          { rest with alone := element :: rest.alone }
      | partner :: waiting =>
          let rest := pass label elements (queues.insert (label element) waiting)
          { rest with pairs := (element, partner.1) :: rest.pairs }

/-- The elements that still wait in the queue of their label. -/
def waiting (label : α → String) (queues : Queues α) (elements : List (α × Nat)) :
    List (α × Nat) :=
  elements.filter fun element =>
    (queue queues (label element.1)).any fun other => other.2 = element.2

/-- The correspondence of two lists of elements with a name and a fingerprint. -/
def of (name fingerprint : α → String) (previous next : List α) : Matching α :=
  let elements := next.zipIdx
  let first := pass fingerprint previous (queuesOf fingerprint elements)
  let free := waiting fingerprint first.queues elements
  let second := pass name first.alone (queuesOf name free)
  { unchanged := first.pairs
    modified := second.pairs
    removed := second.alone
    added := (waiting name second.queues free).map Prod.fst }

/-- The correspondence of two lists of entities, by name and digest. -/
def ofEntities [Entity α] (previous next : List α) : Matching α :=
  of Entity.name Entity.hash previous next

/-- The correspondence of two lists of texts, each its own name and fingerprint. -/
def ofTexts (previous next : List String) : Matching String :=
  of id id previous next

def isUnchanged (matching : Matching α) : Bool :=
  matching.modified.isEmpty && matching.removed.isEmpty && matching.added.isEmpty

end Matching

end JvmDiff
