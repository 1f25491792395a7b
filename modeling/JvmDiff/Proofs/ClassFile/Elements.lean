import JvmDiff.Proofs.ClassFile.Listing

/-!
# Reading back annotations

The bytes of an element are read as its value by any reader that goes deep enough, and the number
of the bytes is deep enough.
-/

namespace JvmDiff.ClassFile

open Reader

/-- The bytes are read as the value, with no more levels than there are
bytes. -/
def ReadsValue (pool : ConstantPool) (size : Nat) (value : ElementValue) (bytes : List UInt8) :
    Prop :=
  bytes.length = size ∧ ∀ depth, size ≤ depth → Reads (readValue pool depth) bytes value

/-- What comes after the tag of an element is one level deeper. -/
theorem readsValue_cons {pool : ConstantPool} {size : Nat} {value : ElementValue} {tag : UInt8}
    {bytes : List UInt8} (length : bytes.length = size)
    (reads : ∀ depth, size ≤ depth → Reads (readValue pool (depth + 1)) ([tag] ++ bytes) value) :
    ReadsValue pool (size + 1) value (tag :: bytes) := by
  refine ⟨congrArg Nat.succ length, fun depth deep => ?_⟩
  cases depth with
  | zero => exact absurd deep (Nat.not_succ_le_zero size)
  | succ depth => exact reads depth (Nat.le_of_succ_le_succ deep)

/-! ## Leaves -/

/-- The tag of a leaf decides how what follows it is read. -/
theorem readsValue_leaf {pool : ConstantPool} {tag : Char} {leaf : ElementLeaf}
    {read : Reader ElementLeaf} {bytes : List UInt8} {size : Nat} (small : tag.toNat < 256)
    (announced : readLeaf pool tag = some read) (length : bytes.length = size)
    (reads : Reads read bytes leaf) :
    ReadsValue pool (size + 1) (.leaf leaf) (UInt8.ofNat tag.toNat :: bytes) := by
  refine readsValue_cons length fun depth _ => ?_
  rw [readValue]
  refine (reads_u1 small).bind ?_
  rw [Char.ofNat_toNat, announced]
  exact reads.bind_nil (reads_pure _)

/-- A leaf that is one entry of the pool, after its tag. -/
theorem gathers_leaf {α : Type} (tag : Char) (entry : Entry) (fits : ∀ next, entry.Fits next)
    {get : ConstantPool → Nat → Except Error α} {value : α}
    (found : ∀ {pool : ConstantPool} {slot : Nat}, pool.get slot = .ok entry →
      get pool slot = .ok value)
    (small : tag.toNat < 256) {next : α → Reader ElementLeaf} {leaf : ElementLeaf}
    (announced : ∀ pool, readLeaf pool tag =
      some ((do Reader.ofExcept (get pool (← u2))) >>= next))
    (reads : Reads (next value) [] leaf) :
    Gathers
      (do let index ← slot (PoolDraft.intern entry); return UInt8.ofNat tag.toNat :: index)
      fun pool bytes => ReadsValue pool 3 (.leaf leaf) bytes :=
  (gathers_entry entry fits found).map fun pool _ atSlot =>
    readsValue_leaf small (announced pool) atSlot.length (atSlot.reads.bind_nil reads)

theorem integer_of_get {pool : ConstantPool} {slot : Nat} {value : Int32}
    (found : pool.get slot = .ok (.integer value)) : pool.integer slot = .ok value := by
  rw [ConstantPool.integer, found]
  rfl

theorem long_of_get {pool : ConstantPool} {slot : Nat} {value : Int64}
    (found : pool.get slot = .ok (.long value)) : pool.long slot = .ok value := by
  rw [ConstantPool.long, found]
  rfl

theorem float_of_get {pool : ConstantPool} {slot : Nat} {value : Single}
    (found : pool.get slot = .ok (.float value)) : pool.float slot = .ok value := by
  rw [ConstantPool.float, found]
  rfl

theorem double_of_get {pool : ConstantPool} {slot : Nat} {value : Double}
    (found : pool.get slot = .ok (.double value)) : pool.double slot = .ok value := by
  rw [ConstantPool.double, found]
  rfl

theorem charOfCode_toNat (c : Char) : charOfCode (Int32.ofInt c.toNat) = .ok c := by
  have valid : c.toNat < 0xD800 ∨ 0xDFFF < c.toNat ∧ c.toNat < 0x110000 := c.valid
  have nonneg : (0 : Int) ≤ c.toNat := Int.natCast_nonneg c.toNat
  have code : (Int32.ofInt c.toNat).toInt = c.toNat :=
    Int32.toInt_ofInt_of_le (Int.le_trans (by decide) nonneg) (by omega)
  have isValid : 0 ≤ (c.toNat : Int) ∧ (c.toNat : Int).toNat.isValidChar := ⟨nonneg, c.valid⟩
  rw [charOfCode, code, if_pos isValid, Int.toNat_natCast, Char.ofNat_toNat]

theorem decodedType_eq {descriptor : String} (isDescriptor : IsDescriptor descriptor) :
    decodedType descriptor = .ok (typeOf descriptor) := by
  rw [IsDescriptor] at isDescriptor
  rw [decodedType, typeOf]
  cases known : Signature.decodeFieldDescriptor descriptor with
  | ok type => rfl
  | error fault =>
    rw [known] at isDescriptor
    cases isDescriptor

theorem literalType_eq {descriptor : String} (isDescriptor : IsDescriptor descriptor) :
    literalType descriptor = .ok (typeOf descriptor) := by
  rw [literalType]
  split
  case isTrue isVoid =>
    subst isVoid
    rfl
  case isFalse => exact decodedType_eq isDescriptor

theorem gathers_leafBytes {leaf : ElementLeaf} (fits : LeafFits leaf) :
    Gathers (leafBytes leaf) fun pool bytes =>
      ReadsValue pool (Element.leaf leaf).size (.leaf (leafValue leaf)) bytes := by
  cases leaf with
  | byte value =>
    have same : (Int32.ofInt value.toInt).toInt8 = value := by
      rw [Int32.toInt8_ofInt, Int8.ofInt_toInt]
    exact gathers_leaf 'B' (.integer (Int32.ofInt value.toInt)) (fun _ => trivial) integer_of_get
      (by decide) (fun _ => rfl) (reads_result (by rw [same]; rfl))
  | char value =>
    exact gathers_leaf 'C' (.integer (Int32.ofInt value.toNat)) (fun _ => trivial) integer_of_get
      (by decide) (fun _ => rfl) (Reads.ofExcept_bind (charOfCode_toNat value) (reads_pure _))
  | short value =>
    have same : (Int32.ofInt value.toInt).toInt16 = value := by
      rw [Int32.toInt16_ofInt, Int16.ofInt_toInt]
    exact gathers_leaf 'S' (.integer (Int32.ofInt value.toInt)) (fun _ => trivial) integer_of_get
      (by decide) (fun _ => rfl) (reads_result (by rw [same]; rfl))
  | int value =>
    exact gathers_leaf 'I' (.integer (Int32.ofInt value.toInt)) (fun _ => trivial) integer_of_get
      (by decide) (fun _ => rfl) (reads_result (by rw [Int32.ofInt_toInt]; rfl))
  | boolean value =>
    exact gathers_leaf 'Z' (.integer (Int32.ofInt (if value then 1 else 0))) (fun _ => trivial)
      integer_of_get (by decide) (fun _ => rfl) (reads_result (by cases value <;> rfl))
  | long value =>
    exact gathers_leaf 'J' (.long value) (fun _ => trivial) long_of_get (by decide) (fun _ => rfl)
      (reads_pure _)
  | float value =>
    exact gathers_leaf 'F' (.float value) (fun _ => trivial) float_of_get (by decide)
      (fun _ => rfl) (reads_pure _)
  | double value =>
    exact gathers_leaf 'D' (.double value) (fun _ => trivial) double_of_get (by decide)
      (fun _ => rfl) (reads_pure _)
  | string value =>
    exact gathers_leaf 's' (.utf8 value) (fun _ => fits) utf8_of_get (by decide) (fun _ => rfl)
      (reads_pure _)
  | classLiteral descriptor =>
    exact gathers_leaf 'c' (.utf8 descriptor) (fun _ => fits.1) utf8_of_get (by decide)
      (fun _ => rfl) (Reads.ofExcept_bind (literalType_eq fits.2) (reads_pure _))
  | enumConstant descriptor constant =>
    obtain ⟨shortDescriptor, shortConstant, isDescriptor⟩ := fits
    have tagged : Gathers
        (do
          let index ← slot (PoolDraft.utf8 descriptor)
          return UInt8.ofNat 'e'.toNat :: index)
        fun pool bytes => ∃ index, bytes = UInt8.ofNat 'e'.toNat :: index ∧
          AtSlot pool.utf8 descriptor index :=
      (gathers_text shortDescriptor).map fun _ index atSlot => ⟨index, rfl, atSlot⟩
    refine tagged.bind fun type => (gathers_text shortConstant).map ?_
    rintro pool name atName ⟨index, rfl, atType⟩
    change ReadsValue pool 5 _ (UInt8.ofNat 'e'.toNat :: (index ++ name))
    refine readsValue_leaf (by decide) rfl ?_ ?_
    · rw [List.length_append, atType.length, atName.length]
    · refine atType.reads.bind (atName.reads.bind_nil ?_)
      exact Reads.ofExcept_bind (decodedType_eq isDescriptor) (reads_pure _)

/-! ## Arrays and annotations -/

theorem length_countedBytes (parts : List (List UInt8)) :
    (countedBytes parts).length = 2 + parts.flatten.length := by
  rw [countedBytes, List.length_append, length_bigEndian]

/-- Reads an element of an annotation, given how its value is read. -/
def readElement (pool : ConstantPool) (readValue : Reader ElementValue) :
    Reader (String × ElementValue) := do
  let key ← Reader.ofExcept (pool.utf8 (← Reader.u2))
  let value ← readValue
  return (key, value)

/-- The parts are the bytes of as many values, together of the given size, and
no value goes deeper than that. -/
structure ReadsParts {α : Type} (read : Nat → Reader α) (size : Nat) (values : List α)
    (parts : List (List UInt8)) : Prop where
  length : parts.flatten.length = size
  reads : ∀ depth, size ≤ depth → List.Forall₂ (Reads (read depth)) parts values

theorem readsParts_nil {α : Type} (read : Nat → Reader α) : ReadsParts read 0 [] [] :=
  ⟨rfl, fun _ _ => List.Forall₂.nil⟩

theorem ReadsParts.cons {α : Type} {read : Nat → Reader α} {size sizeMore : Nat} {value : α}
    {values : List α} {part : List UInt8} {parts : List (List UInt8)} (length : part.length = size)
    (reads : ∀ depth, size ≤ depth → Reads (read depth) part value)
    (more : ReadsParts read sizeMore values parts) :
    ReadsParts read (size + sizeMore) (value :: values) (part :: parts) := by
  refine ⟨?_, fun depth deep => ?_⟩
  · rw [List.flatten_cons, List.length_append, length, more.length]
  · exact List.Forall₂.cons (reads depth (by omega)) (more.reads depth (by omega))

theorem reads_annotationEntry {pool : ConstantPool} {descriptor : String}
    {elements : List (String × ElementValue)} {size depth : Nat} {type : List UInt8}
    {parts : List (List UInt8)} (atType : AtSlot pool.utf8 descriptor type)
    (short : elements.length ≤ 0xFFFF)
    (reads : ReadsParts (fun depth => readElement pool (readValue pool depth)) size elements parts)
    (deep : size ≤ depth) :
    Reads (AnnotationEntry.read pool (readValue pool depth)) (type ++ countedBytes parts)
      ⟨descriptor, elements⟩ := by
  have each := reads.reads depth deep
  refine atType.reads_bind ?_
  exact (reads_counted (each.length_eq ▸ short) each).bind_nil (reads_pure _)

theorem readsValue_nested {pool : ConstantPool} {descriptor : String}
    {elements : List (String × ElementValue)} {size : Nat} {type : List UInt8}
    {parts : List (List UInt8)} (atType : AtSlot pool.utf8 descriptor type)
    (short : elements.length ≤ 0xFFFF)
    (reads :
      ReadsParts (fun depth => readElement pool (readValue pool depth)) size elements parts) :
    ReadsValue pool (5 + size)
      ((AnnotationUse.ofDescriptor descriptor).insertAll elements).toValue
      (UInt8.ofNat '@'.toNat :: (type ++ countedBytes parts)) := by
  have length : (type ++ countedBytes parts).length = 4 + size := by
    rw [List.length_append, atType.length, length_countedBytes, reads.length, ← Nat.add_assoc]
  rw [show 5 + size = 4 + size + 1 by omega]
  refine readsValue_cons length fun depth deep => ?_
  rw [readValue]
  refine (reads_u1 (by decide)).bind ?_
  exact (reads_annotationEntry atType short reads (by omega)).bind_nil (reads_pure _)

theorem readsValue_array {pool : ConstantPool} {items : List ElementValue} {size : Nat}
    {parts : List (List UInt8)} (short : items.length ≤ 0xFFFF)
    (reads : ReadsParts (readValue pool) size items parts) :
    ReadsValue pool (3 + size) (.array items)
      (UInt8.ofNat '['.toNat :: countedBytes parts) := by
  have length : (countedBytes parts).length = 2 + size := by
    rw [length_countedBytes, reads.length]
  rw [show 3 + size = 2 + size + 1 by omega]
  refine readsValue_cons length fun depth deep => ?_
  have each := reads.reads depth (by omega)
  rw [readValue]
  refine (reads_u1 (by decide)).bind ?_
  exact (reads_counted (each.length_eq ▸ short) each).bind_nil (reads_pure _)

mutual

/-- The bytes of an element are read as its value. -/
theorem gathers_element : (element : Element) → element.Fits →
    Gathers element.bytes fun pool bytes => ReadsValue pool element.size element.value bytes
  | .leaf leaf, fits => by
    rw [Element.bytes, Element.value]
    exact gathers_leafBytes (by rwa [Element.Fits] at fits)
  | .array items, fits => by
    rw [Element.Fits] at fits
    rw [Element.bytes, Element.value, Element.size]
    refine (gathers_items items fits.2).map fun pool parts reads => readsValue_array ?_ reads
    rw [itemValues_eq_map, List.length_map]
    exact fits.1
  | .nested descriptor elements, fits => by
    rw [Element.Fits] at fits
    obtain ⟨shortDescriptor, shortList, elementsFit⟩ := fits
    rw [Element.bytes, Element.value, Element.size]
    refine (gathers_text shortDescriptor).bind fun type =>
      (gathers_elements elements elementsFit).map fun pool parts reads atType =>
        readsValue_nested atType ?_ reads
    rw [elementValues_eq_map, List.length_map]
    exact shortList

theorem gathers_items : (items : List Element) → ItemsFit items →
    Gathers (Element.itemBytes items) fun pool parts =>
      ReadsParts (readValue pool) (itemsSize items) (itemValues items) parts
  | [], _ => by
    rw [Element.itemBytes, itemsSize, itemValues]
    exact gathers_pure fun pool => readsParts_nil _
  | item :: items, fits => by
    rw [ItemsFit] at fits
    rw [Element.itemBytes, itemsSize, itemValues]
    exact (gathers_element item fits.1).bind fun first =>
      (gathers_items items fits.2).map fun pool parts more reads =>
        ReadsParts.cons reads.1 reads.2 more

theorem gathers_elements : (elements : List (String × Element)) → ElementsFit elements →
    Gathers (Element.elementBytes elements) fun pool parts =>
      ReadsParts (fun depth => readElement pool (readValue pool depth)) (elementsSize elements)
        (elementValues elements) parts
  | [], _ => by
    rw [Element.elementBytes, elementsSize, elementValues]
    exact gathers_pure fun pool => readsParts_nil _
  | (key, value) :: elements, fits => by
    rw [ElementsFit] at fits
    obtain ⟨shortKey, valueFits, elementsFit⟩ := fits
    rw [Element.elementBytes, elementsSize, elementValues]
    refine (gathers_text shortKey).bind fun name =>
      (gathers_element value valueFits).bind fun first =>
      (gathers_elements elements elementsFit).map fun pool parts more reads atName => ?_
    refine ReadsParts.cons ?_ (fun depth deep => ?_) more
    · rw [List.length_append, atName.length, reads.1]
    · exact atName.reads_bind ((reads.2 depth (by omega)).bind_nil (reads_pure _))

end

end JvmDiff.ClassFile
