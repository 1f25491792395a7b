import JvmDiff.Proofs.ClassFile.RoundTrip

/-!
# Faults of texts

Three errors are about the bytes of a text.  Texts are spelled out in the constant pool only:
whatever is read behind it looks them up there, and so never finds such a fault.
-/

namespace JvmDiff.ClassFile

open Reader

/-- The error is about the bytes of a text. -/
def Error.IsOfText : Error → Prop
  | .leadByte _ => True
  | .truncatedText => True
  | .unpairedSurrogate _ => True
  | _ => False

/-! ## Results and steps of reading -/

section Spares

variable {α β : Type}

/-- The result is not an error about a text. -/
def Spares (result : Except Error α) : Prop :=
  ∀ error, result = .error error → ¬ error.IsOfText

theorem spares_ok (value : α) : Spares (.ok value) := nofun

theorem spares_error {error : Error} (other : ¬ error.IsOfText) :
    Spares (.error error : Except Error α) := by
  rintro _ ⟨⟩
  exact other

theorem Spares.bind {result : Except Error α} {next : α → Except Error β}
    (spares : Spares result) (sparesNext : ∀ value, Spares (next value)) :
    Spares (result >>= next) := by
  cases result with
  | ok value => exact sparesNext value
  | error error => exact spares_error (spares error rfl)

theorem Spares.map {result : Except Error α} (spares : Spares result) (f : α → β) :
    Spares (result.map f) := by
  cases result with
  | ok value => exact spares_ok _
  | error error => exact spares_error (spares error rfl)

namespace Reader

/-- The step finds no fault with a text, whatever it is given. -/
def SparesTexts (read : Reader α) : Prop :=
  ∀ input, Spares (read input)

theorem sparesTexts_pure (value : α) : SparesTexts (pure value : Reader α) :=
  fun _ => spares_ok _

theorem sparesTexts_throw {error : Error} (other : ¬ error.IsOfText) :
    SparesTexts (throw error : Reader α) :=
  fun _ => spares_error other

theorem sparesTexts_ofExcept {result : Except Error α} (spares : Spares result) :
    SparesTexts (ofExcept result) := by
  intro input
  cases result with
  | ok value => exact spares_ok _
  | error error => exact spares_error (spares error rfl)

theorem SparesTexts.bind {read : Reader α} {next : α → Reader β} (spares : SparesTexts read)
    (sparesNext : ∀ value, SparesTexts (next value)) : SparesTexts (read >>= next) :=
  fun input => (spares input).bind fun found => sparesNext found.1 found.2

theorem sparesTexts_take (count : Nat) : SparesTexts (take count) := by
  intro input
  rw [take]
  split
  · exact spares_ok _
  · exact spares_error not_false

theorem sparesTexts_number (count : Nat) : SparesTexts (number count) :=
  (sparesTexts_take count).bind fun _ => sparesTexts_pure _

theorem sparesTexts_u2 : SparesTexts u2 :=
  sparesTexts_number 2

/-- A result that is found for a number. -/
theorem sparesTexts_lookup {find : Nat → Except Error α} (spares : ∀ index, Spares (find index)) :
    SparesTexts (do ofExcept (find (← u2))) :=
  sparesTexts_u2.bind fun index => sparesTexts_ofExcept (spares index)

theorem sparesTexts_lookup_bind {find : Nat → Except Error α} {next : α → Reader β}
    (spares : ∀ index, Spares (find index)) (sparesNext : ∀ value, SparesTexts (next value)) :
    SparesTexts (do let value ← ofExcept (find (← u2)); next value) :=
  sparesTexts_u2.bind fun index => (sparesTexts_ofExcept (spares index)).bind sparesNext

theorem SparesTexts.repeated {read : Reader α} (spares : SparesTexts read) (count : Nat) :
    SparesTexts (repeated read count) := by
  induction count with
  | zero => exact sparesTexts_pure []
  | succ count inductionHypothesis =>
    exact spares.bind fun _ => inductionHypothesis.bind fun _ => sparesTexts_pure _

theorem SparesTexts.counted {read : Reader α} (spares : SparesTexts read) :
    SparesTexts (counted read) :=
  sparesTexts_u2.bind spares.repeated

theorem SparesTexts.within {read : Reader α} (spares : SparesTexts read) (body : List UInt8) :
    SparesTexts (within body read) :=
  sparesTexts_ofExcept (spares _)

end Reader

end Spares

/-! ## What is looked up and read -/

namespace ConstantPool

variable (pool : ConstantPool) (index : Nat)

theorem spares_get : Spares (pool.get index) := by
  rw [get]
  split
  · exact spares_ok _
  · exact spares_error not_false

theorem spares_utf8 : Spares (pool.utf8 index) := by
  refine (pool.spares_get index).bind fun entry => ?_
  split
  · exact spares_ok _
  · exact spares_error not_false

theorem spares_className : Spares (pool.className index) := by
  refine (pool.spares_get index).bind fun entry => ?_
  split
  · exact pool.spares_utf8 _
  · exact spares_error not_false

theorem spares_optionalClassName : Spares (pool.optionalClassName index) := by
  rw [optionalClassName]
  split
  · exact spares_ok _
  · exact (pool.spares_className index).map some

theorem spares_integer : Spares (pool.integer index) := by
  refine (pool.spares_get index).bind fun entry => ?_
  split
  · exact spares_ok _
  · exact spares_error not_false

theorem spares_long : Spares (pool.long index) := by
  refine (pool.spares_get index).bind fun entry => ?_
  split
  · exact spares_ok _
  · exact spares_error not_false

theorem spares_float : Spares (pool.float index) := by
  refine (pool.spares_get index).bind fun entry => ?_
  split
  · exact spares_ok _
  · exact spares_error not_false

theorem spares_double : Spares (pool.double index) := by
  refine (pool.spares_get index).bind fun entry => ?_
  split
  · exact spares_ok _
  · exact spares_error not_false

theorem spares_fieldConstant : Spares (pool.fieldConstant index) := by
  refine (pool.spares_get index).bind fun entry => ?_
  split
  case h_5 text => exact (pool.spares_utf8 text).bind fun _ => spares_ok _
  case h_6 => exact spares_error not_false
  all_goals exact spares_ok _

end ConstantPool

theorem spares_decodedType (descriptor : String) : Spares (decodedType descriptor) := by
  rw [decodedType]
  cases Signature.decodeFieldDescriptor descriptor with
  | ok type => exact spares_ok _
  | error fault => exact spares_error not_false

theorem spares_literalType (descriptor : String) : Spares (literalType descriptor) := by
  rw [literalType]
  split
  · exact spares_ok _
  · exact spares_decodedType descriptor

theorem spares_charOfCode (code : Int32) : Spares (charOfCode code) := by
  rw [charOfCode]
  split
  · exact spares_ok _
  · exact spares_error not_false

section Values

variable (pool : ConstantPool)

theorem sparesTexts_readLeaf {tag : Char} {read : Reader ElementLeaf}
    (isLeaf : readLeaf pool tag = some read) : SparesTexts read := by
  -- Most leaves are one constant, converted.
  have converted {α : Type} {find : Nat → Except Error α} {convert : α → ElementLeaf}
      (spares : ∀ index, Spares (find index))
      (same : (do return convert (← (do Reader.ofExcept (find (← u2)) : Reader α))) = read) :
      SparesTexts read := by
    subst same
    exact (sparesTexts_lookup spares).bind fun _ => sparesTexts_pure _
  unfold readLeaf at isLeaf
  split at isLeaf
  case h_12 => cases isLeaf
  all_goals have same := Option.some.inj isLeaf
  case h_1 | h_3 | h_4 | h_5 => exact converted pool.spares_integer same
  case h_6 => exact converted pool.spares_long same
  case h_7 => exact converted pool.spares_float same
  case h_8 => exact converted pool.spares_double same
  case h_9 => exact converted pool.spares_utf8 same
  case h_2 =>
    subst same
    exact (sparesTexts_lookup pool.spares_integer).bind fun code =>
      (sparesTexts_ofExcept (spares_charOfCode code)).bind fun _ => sparesTexts_pure _
  case h_10 =>
    subst same
    exact (sparesTexts_lookup pool.spares_utf8).bind fun descriptor =>
      (sparesTexts_lookup pool.spares_utf8).bind fun _ =>
        (sparesTexts_ofExcept (spares_decodedType descriptor)).bind fun _ => sparesTexts_pure _
  case h_11 =>
    subst same
    exact (sparesTexts_lookup pool.spares_utf8).bind fun descriptor =>
      (sparesTexts_ofExcept (spares_literalType descriptor)).bind fun _ => sparesTexts_pure _

theorem AnnotationEntry.sparesTexts_read {readValue : Reader ElementValue}
    (spares : SparesTexts readValue) : SparesTexts (AnnotationEntry.read pool readValue) := by
  have element : SparesTexts (do
      let key ← Reader.ofExcept (pool.utf8 (← u2))
      let value ← readValue
      return (key, value)) :=
    sparesTexts_lookup_bind pool.spares_utf8 fun _ => spares.bind fun _ => sparesTexts_pure _
  exact sparesTexts_lookup_bind pool.spares_utf8 fun _ => element.counted.bind fun _ =>
    sparesTexts_pure _

theorem sparesTexts_readValue (depth : Nat) : SparesTexts (readValue pool depth) := by
  induction depth with
  | zero => exact fun _ => spares_error not_false
  | succ depth inductionHypothesis =>
    refine (sparesTexts_number 1).bind fun tag => ?_
    cases isLeaf : readLeaf pool (Char.ofNat tag) with
    | some leaf => exact (sparesTexts_readLeaf pool isLeaf).bind fun _ => sparesTexts_pure _
    | none =>
      dsimp only
      split
      · exact (AnnotationEntry.sparesTexts_read pool inductionHypothesis).bind fun _ =>
          sparesTexts_pure _
      · split
        · exact inductionHypothesis.counted.bind fun _ => sparesTexts_pure _
        · exact sparesTexts_throw not_false

theorem sparesTexts_readAnnotations : SparesTexts (readAnnotations pool) := fun input =>
  (AnnotationEntry.sparesTexts_read pool (sparesTexts_readValue pool _)).counted input

theorem InnerEntry.sparesTexts_read : SparesTexts (InnerEntry.read pool) :=
  sparesTexts_u2.bind fun inner => sparesTexts_u2.bind fun _ => sparesTexts_u2.bind fun _ =>
    sparesTexts_u2.bind fun _ => (sparesTexts_ofExcept (pool.spares_className inner)).bind fun _ =>
      sparesTexts_pure _

end Values

namespace Attributes

variable (pool : ConstantPool)

theorem sparesTexts_readBody {found : Attributes} {name : String} {read : Reader Attributes}
    (known : readBody pool found name = some read) : SparesTexts read := by
  unfold readBody at known
  split at known
  · cases known
    exact sparesTexts_lookup_bind pool.spares_utf8 fun _ => sparesTexts_pure _
  split at known
  · cases known
    exact sparesTexts_lookup_bind pool.spares_fieldConstant fun _ => sparesTexts_pure _
  split at known
  · cases known
    exact (sparesTexts_lookup pool.spares_className).counted.bind fun _ => sparesTexts_pure _
  split at known
  · cases known
    exact (sparesTexts_readAnnotations pool).bind fun _ => sparesTexts_pure _
  split at known
  · cases known
    exact (InnerEntry.sparesTexts_read pool).counted.bind fun _ => sparesTexts_pure _
  · cases known

theorem sparesTexts_readOne (found : Attributes) : SparesTexts (readOne pool found) := by
  refine sparesTexts_lookup_bind pool.spares_utf8 fun name => (sparesTexts_number 4).bind fun length =>
    (sparesTexts_take length).bind fun body => ?_
  cases known : readBody pool found name with
  | none => exact sparesTexts_pure found
  | some read =>
    refine ((sparesTexts_readBody pool known).within body).bind fun ⟨next, left⟩ => ?_
    dsimp only
    split
    · exact sparesTexts_pure next
    · exact sparesTexts_throw not_false

theorem sparesTexts_readMany (count : Nat) (found : Attributes) :
    SparesTexts (readMany pool count found) := by
  induction count generalizing found with
  | zero => exact sparesTexts_pure found
  | succ count inductionHypothesis =>
    exact (sparesTexts_readOne pool found).bind inductionHypothesis

theorem sparesTexts_read : SparesTexts (Attributes.read pool) :=
  sparesTexts_u2.bind fun count => sparesTexts_readMany pool count {}

end Attributes

theorem WrittenMember.sparesTexts_read (pool : ConstantPool) :
    SparesTexts (WrittenMember.read pool) :=
  sparesTexts_u2.bind fun _ => sparesTexts_lookup_bind pool.spares_utf8 fun _ =>
    sparesTexts_lookup_bind pool.spares_utf8 fun _ =>
    (Attributes.sparesTexts_read pool).bind fun _ => sparesTexts_pure _

/-- Behind the constant pool nothing is rejected for a text. -/
theorem sparesTexts_readAfterPool (version : Nat) (pool : ConstantPool) :
    SparesTexts (readAfterPool version pool) :=
  sparesTexts_u2.bind fun _ => sparesTexts_lookup_bind pool.spares_className fun _ =>
    sparesTexts_lookup_bind pool.spares_optionalClassName fun _ =>
    (sparesTexts_lookup pool.spares_className).counted.bind fun _ =>
    (WrittenMember.sparesTexts_read pool).counted.bind fun _ =>
    (WrittenMember.sparesTexts_read pool).counted.bind fun _ =>
    (Attributes.sparesTexts_read pool).bind fun _ => sparesTexts_pure _

end JvmDiff.ClassFile
