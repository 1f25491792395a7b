import JvmDiff.Proofs.ClassFile.Attributes

/-!
# Reading back a class file

The file of a definition is read as the parts that the definition lists.
-/

namespace JvmDiff.ClassFile

open Reader

/-! ## Members -/

theorem reads_accessBytes (access : Access) : Reads u2 (accessBytes access) (fileFlags access) :=
  reads_u2 (Nat.mod_lt _ (by decide))

theorem gathers_field {field : FieldDefinition} (fits : field.Fits) :
    Gathers field.bytes fun pool bytes => Reads (WrittenMember.read pool) bytes field.listed := by
  refine (gathers_text fits.name).bind fun name =>
    (gathers_text fits.descriptor).bind fun descriptor =>
    (gathers_signature fits.signature).bind fun signature =>
    (gathers_fieldConstant fits.constant).bind fun constant =>
    (gathers_annotationAttributes fits.annotations).map fun pool annotations readsAnnotations
      readsConstant readsSignature atDescriptor atName => ?_
  have attributes :=
    ((readsSignature.append readsConstant).append readsAnnotations).read (by decide)
  rw [List.append_assoc, List.append_assoc]
  refine (reads_accessBytes field.access).bind (atName.reads_bind (atDescriptor.reads_bind ?_))
  refine attributes.bind_nil (reads_result ?_)
  simp [FieldDefinition.listed, Attributes.withSignature, Attributes.withConstant,
    Attributes.withAnnotations]

/-- The bytes of a method are read as the method, without its code. -/
theorem gathers_method {method : MethodDefinition} (fits : method.Fits) :
    Gathers method.bytes fun pool bytes => Reads (WrittenMember.read pool) bytes method.listed := by
  have code : Gathers
      (optionally (namedAttribute "Code") (if method.hasCode then some emptyCode else none))
      fun pool items => ReadsAttributes pool 1 id items := by
    refine gathers_optionally (fun _ => id) rfl fun body member => ?_
    have isEmptyCode : body = emptyCode := by
      split at member
      · exact (Option.some.inj member).symm
      · cases member
    rw [isEmptyCode]
    exact (gathers_passedOver "Code" (by decide) (fun _ _ => rfl) emptyCode).imp
      fun pool bytes reads => reads (by decide)
  refine (gathers_text fits.name).bind fun name =>
    (gathers_text fits.descriptor).bind fun descriptor =>
    code.bind fun code =>
    (gathers_signature fits.signature).bind fun signature =>
    (gathers_exceptions fits.exceptions fits.exceptionCount).bind fun exceptions =>
    (gathers_annotationAttributes fits.annotations).map fun pool annotations readsAnnotations
      readsExceptions readsSignature readsCode atDescriptor atName => ?_
  have attributes :=
    (((readsCode.append readsSignature).append readsExceptions).append readsAnnotations).read
      (by decide)
  rw [List.append_assoc, List.append_assoc]
  refine (reads_accessBytes method.access).bind (atName.reads_bind (atDescriptor.reads_bind ?_))
  refine attributes.bind_nil (reads_result ?_)
  simp [MethodDefinition.listed, Attributes.withSignature, Attributes.withExceptions,
    Attributes.withAnnotations]

/-! ## Classes -/

/-- A superclass, or slot 0 where there is none. -/
theorem gathers_superclass {superclass : Option String}
    (short : ∀ name ∈ superclass, Short name) :
    Gathers (optionalClass superclass) fun pool bytes =>
      AtSlot pool.optionalClassName superclass bytes := by
  cases superclass with
  | none => exact gathers_pure fun pool => ⟨0, by decide, rfl, rfl⟩
  | some name => exact (gathers_class (short name rfl)).imp fun pool bytes atSlot => atSlot.2

/-- The attributes of a class are read, and the name of its source file is
passed over. -/
theorem gathers_attributeBytes {definition : Definition} (fits : definition.Fits)
    (source : Short (definition.simpleName ++ ".java")) :
    Gathers definition.attributeBytes fun pool bytes =>
      Reads (Attributes.read pool) bytes definition.listed.attributes := by
  refine (gathers_signature fits.signature).bind fun signature =>
    (gathers_annotationAttributes fits.annotations).bind fun annotations =>
    (gathers_innerClasses fits.innerClasses fits.innerClassCount).bind fun innerClasses =>
    (gathers_text source).bind fun sourceText =>
    (gathers_passedOver "SourceFile" (by decide) (fun _ _ => rfl) sourceText).map fun pool
      sourceFile passesOver atSource readsInnerClasses readsAnnotations readsSignature => ?_
  have readsSource := passesOver (by rw [atSource.length]; decide)
  have attributes :=
    (((readsSignature.append readsAnnotations).append readsInnerClasses).append readsSource).read
      (by decide)
  have same : definition.listed.attributes =
      (id ∘ Attributes.withInnerClasses (definition.innerClasses.map fun entry =>
        ⟨entry.1, fileFlags entry.2⟩) ∘ Attributes.withAnnotations
          ((visibleFirst definition.annotations).map AnnotationDefinition.listed) ∘
            Attributes.withSignature definition.signature) {} := by
    simp [Definition.listed, Attributes.withSignature, Attributes.withInnerClasses,
      Attributes.withAnnotations]
  rw [same]
  exact attributes

def readAfterPool (version : Nat) (pool : ConstantPool) : Reader WrittenClass := do
  let access ← Reader.u2
  let name ← Reader.ofExcept (pool.className (← Reader.u2))
  let superclass ← Reader.ofExcept (pool.optionalClassName (← Reader.u2))
  let interfaces ← Reader.counted do
    Reader.ofExcept (pool.className (← Reader.u2))
  let fields ← Reader.counted (WrittenMember.read pool)
  let methods ← Reader.counted (WrittenMember.read pool)
  let attributes ← Attributes.read pool
  return ⟨version, access, name, superclass, interfaces, fields, methods, attributes⟩

theorem gathers_bodyBytes {definition : Definition} (fits : definition.Fits)
    (source : Short (definition.simpleName ++ ".java")) :
    Gathers definition.bodyBytes fun pool bytes =>
      Reads (readAfterPool definition.version pool) bytes definition.listed := by
  refine (gathers_class fits.name).bind fun name =>
    (gathers_superclass fits.superclass).bind fun superclass =>
    (gathers_classes fits.interfaces fits.interfaceCount).bind fun interfaces =>
    (gathers_counted FieldDefinition.listed fits.fieldCount fun field member =>
      gathers_field (fits.fields field member)).bind fun fields =>
    (gathers_counted MethodDefinition.listed fits.methodCount fun method member =>
      gathers_method (fits.methods method member)).bind fun methods =>
    (gathers_attributeBytes fits source).map fun pool attributes readsAttributes readsMethods
      readsFields readsInterfaces atSuperclass atName => ?_
  simp only [List.append_assoc]
  refine (reads_accessBytes definition.access).bind (atName.1.reads_bind
    (atSuperclass.reads_bind (readsInterfaces.1.bind (readsFields.bind (readsMethods.bind
      (readsAttributes.bind_nil (reads_pure _)))))))

theorem Definition.bytes_eq (definition : Definition) :
    definition.bytes = bigEndian 4 magic ++ (bigEndian 2 0 ++ (bigEndian 2 definition.version ++
      ((bigEndian 2 (definition.bodyBytes {}).2.next ++ (definition.bodyBytes {}).2.bytes) ++
        (definition.bodyBytes {}).1))) := by
  simp only [List.append_assoc]
  rfl

/-- The file of a definition is read as what the definition lists. -/
theorem reads_definition {definition : Definition} (fits : definition.Fits)
    (source : Short (definition.simpleName ++ ".java")) :
    Reads WrittenClass.read definition.bytes definition.listed := by
  obtain ⟨_, inSlots, known⟩ := gathers_bodyBytes fits source {} InSlots.empty
  obtain ⟨pool, holds, readsPool⟩ := exists_pool inSlots fits.slots
  rw [Definition.bytes_eq]
  refine (reads_u4 (by decide)).bind ?_
  refine (reads_u2 (by decide)).bind ((reads_u2 fits.version).bind (readsPool.bind ?_))
  exact known pool holds

end JvmDiff.ClassFile
