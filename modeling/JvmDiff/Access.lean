/-!
# Access flags

The flags of a class, a member or an inner-class entry, as one 32-bit word, with the keywords
that source code uses for them and the kind of class they declare.
-/

namespace JvmDiff

/-- A set of access flags. -/
structure Access where
  bits : UInt32
deriving DecidableEq, Repr

namespace Access

def accPublic : Access := ⟨0x0001⟩
def accPrivate : Access := ⟨0x0002⟩
def accProtected : Access := ⟨0x0004⟩
def accStatic : Access := ⟨0x0008⟩
def accFinal : Access := ⟨0x0010⟩

/-- On a member, `synchronized`; on a class, a mark without meaning for its
source (`accSuper`). -/
def accSynchronized : Access := ⟨0x0020⟩
def accSuper : Access := accSynchronized
def accVolatile : Access := ⟨0x0040⟩
def accTransient : Access := ⟨0x0080⟩
def accNative : Access := ⟨0x0100⟩
def accInterface : Access := ⟨0x0200⟩
def accAbstract : Access := ⟨0x0400⟩
def accStrict : Access := ⟨0x0800⟩
def accAnnotationType : Access := ⟨0x2000⟩
def accEnum : Access := ⟨0x4000⟩

/-- A flag beyond the sixteen of a class file: an interface method with a
body. -/
def accDefault : Access := ⟨0x40000⟩

/-- Every flag of the first set is in the second. -/
def has (access flags : Access) : Bool :=
  access.bits &&& flags.bits = flags.bits

def union (first second : Access) : Access :=
  ⟨first.bits ||| second.bits⟩

/-- The flags of the first set that are not in the second. -/
def without (access flags : Access) : Access :=
  ⟨access.bits &&& ~~~flags.bits⟩

def raw (access : Access) : Nat :=
  access.bits.toNat

/-- A field with these flags may carry a compile-time constant. -/
def isStaticFinal (access : Access) : Bool :=
  access.has (accStatic.union accFinal)

/-- The keyword groups in source order; of each group the first flag that is
set gives its keyword. -/
def keywordGroups : List (List (Access × String)) :=
  [[(accPublic, "public"), (accProtected, "protected"), (accPrivate, "private")],
    [(accStatic, "static")],
    [(accFinal, "final")],
    [(accEnum, "enum"), (accAnnotationType, "@interface"), (accInterface, "interface"),
      (accAbstract, "abstract")],
    [(accDefault, "default")],
    [(accVolatile, "volatile")],
    [(accTransient, "transient")],
    [(accSynchronized, "synchronized")],
    [(accStrict, "strictfp")],
    [(accNative, "native")]]

/-- The keywords for the flags, separated by blanks. -/
def keywords (access : Access) : String :=
  " ".intercalate <| keywordGroups.filterMap fun group =>
    (group.find? fun entry => access.has entry.1).map Prod.snd

end Access

/-- What a class is declared as. -/
inductive ClassKind where
  | ordinary
  | interface
  | enumeration
  | annotationType
deriving DecidableEq, Repr

namespace ClassKind

/-- Annotations are interfaces too, and an enumeration may be an interface to
its constants, so the more special flag decides. -/
def ofAccess (access : Access) : ClassKind :=
  if access.has Access.accAnnotationType then .annotationType
  else if access.has Access.accEnum then .enumeration
  else if access.has Access.accInterface then .interface
  else .ordinary

/-- The flags that every class of the kind has; they say nothing more once the
kind is known. -/
def impliedAccess : ClassKind → Access
  | .ordinary => Access.accSuper
  | .interface => (Access.accSuper.union Access.accInterface).union Access.accAbstract
  | .enumeration => (Access.accSuper.union Access.accEnum).union Access.accFinal
  | .annotationType =>
      ((Access.accSuper.union Access.accAnnotationType).union Access.accInterface).union
        Access.accAbstract

/-- The name of the kind inside a message. -/
def label : ClassKind → String
  | .ordinary => "class"
  | .interface => "interface"
  | .enumeration => "enum"
  | .annotationType => "annotation"

/-- The name of the kind inside a canonical content. -/
def contentName : ClassKind → String
  | .ordinary => "CLASS"
  | .interface => "INTERFACE"
  | .enumeration => "ENUM"
  | .annotationType => "ANNOTATION"

end ClassKind

end JvmDiff
