import JvmDiff.Proofs.ClassFile.RoundTrip
import Mathlib.Data.List.TakeWhile

/-!
# What a class file is read as

A definition can be told to an assembly without any file: its parts in their order, flags cut to
the sixteen bits of a file, annotations that are visible before those that are not.  Reading the
file of the definition gives the same class, or fails in the same way.
-/

namespace JvmDiff.ClassFile

open Reader

/-! ## Telling a definition -/

/-- The flags that a class file keeps. -/
def keptFlags (access : Access) : Access :=
  ⟨access.bits &&& 0xFFFF⟩

namespace Definition

open Telling (tell)

def tellUse (target : Assembly.Target) (usage : AnnotationDefinition) : Telling Unit := do
  match ← tell (.within (.annotationUse target usage.descriptor)) with
  | .annotationUse handle =>
      usage.elements.forM fun element => do
        let _ ← tell (.within (.annotationValue handle element.1 element.2.value))
  | _ => return ()

/-- Tells a field and its annotations; only a static final field keeps its
constant. -/
def tellField (field : FieldDefinition) : Telling Unit := do
  let header : Assembly.FieldHeader :=
    { name := field.name
      access := keptFlags field.access
      descriptor := field.descriptor
      signature := field.signature
      constant := if (keptFlags field.access).isStaticFinal then field.constant else none }
  match ← tell (.within (.field header)) with
  | .field handle => (visibleFirst field.annotations).forM (tellUse (.field handle))
  | _ => return ()

def tellMethod (method : MethodDefinition) : Telling Unit := do
  let header : Assembly.MethodHeader :=
    { name := method.name
      access := keptFlags method.access
      descriptor := method.descriptor
      signature := method.signature
      exceptions := method.exceptions }
  match ← tell (.within (.method header)) with
  | .member handle => (visibleFirst method.annotations).forM (tellUse (.member handle))
  | _ => return ()

/-- Tells a class: its head, its fields, its methods, its annotations, its inner
classes and its end. -/
def told (definition : Definition) : Telling Class := do
  let header : Assembly.ClassHeader :=
    { name := definition.name
      access := keptFlags definition.access
      version := UInt32.ofNat definition.version
      signature := definition.signature
      superclass := definition.superclass
      interfaces := definition.interfaces }
  let _ ← tell (.beginClass header)
  definition.fields.forM tellField
  definition.methods.forM tellMethod
  (visibleFirst definition.annotations).forM (tellUse .wholeClass)
  definition.innerClasses.forM fun entry => do
    let _ ← tell (.within (.innerClass entry.1 (keptFlags entry.2)))
  match ← tell .endClass with
  | .ended result => return result
  | _ => throw .unbalancedEnd

/-- The class that a definition is told to a fresh assembly as, or the problem
with it, which knows the name of the class. -/
def outcome (definition : Definition) : Except Problem Class :=
  match definition.told {} with
  | .error error => .error (error.toProblem.withClass (Text.dotted definition.name))
  | .ok (result, _) => .ok result

/-! ## Telling what a definition lists -/

theorem access_fileFlags (access : Access) :
    Telling.access (fileFlags access) = keptFlags access := by
  have mask : access.bits.toNat % 0x10000 = access.bits.toNat &&& 0xFFFF :=
    (Nat.and_two_pow_sub_one_eq_mod _ 16).symm
  have bits : UInt32.ofNat (access.bits.toNat % 0x10000) = access.bits &&& 0xFFFF := by
    rw [mask]
    apply UInt32.toNat.inj
    simp
  exact congrArg Access.mk bits

theorem forM_map {α β : Type} (parts : List α) (make : α → β) (tellPart : β → Telling Unit) :
    (parts.map make).forM tellPart = parts.forM fun part => tellPart (make part) := by
  induction parts with
  | nil => rfl
  | cons part parts inductionHypothesis =>
    change (tellPart (make part) >>= fun _ => (parts.map make).forM tellPart) = _
    rw [inductionHypothesis]
    rfl

theorem annotationUse_listed (target : Assembly.Target) (usage : AnnotationDefinition) :
    Telling.annotationUse target usage.listed = tellUse target usage := by
  have elements : usage.listed.elements =
      usage.elements.map fun element => (element.1, element.2.value) :=
    elementValues_eq_map usage.elements
  rw [Telling.annotationUse, tellUse, elements]
  refine bind_congr fun answer => ?_
  cases answer with
  | annotationUse handle => exact forM_map usage.elements _ _
  | _ => rfl

theorem forM_annotationUse (target : Assembly.Target) (annotations : List AnnotationDefinition) :
    (annotations.map AnnotationDefinition.listed).forM (Telling.annotationUse target) =
      annotations.forM (tellUse target) := by
  have same : (fun usage => Telling.annotationUse target (AnnotationDefinition.listed usage)) =
      tellUse target := funext (annotationUse_listed target)
  rw [forM_map, same]

theorem field_listed (field : FieldDefinition) : Telling.field field.listed = tellField field := by
  have flags : Telling.access field.listed.access = keptFlags field.access :=
    access_fileFlags field.access
  rw [Telling.field, tellField, flags]
  refine bind_congr fun answer => ?_
  cases answer with
  | field handle => exact forM_annotationUse (.field handle) (visibleFirst field.annotations)
  | _ => rfl

theorem method_listed (method : MethodDefinition) :
    Telling.method method.listed = tellMethod method := by
  have flags : Telling.access method.listed.access = keptFlags method.access :=
    access_fileFlags method.access
  rw [Telling.method, tellMethod, flags]
  refine bind_congr fun answer => ?_
  cases answer with
  | member handle => exact forM_annotationUse (.member handle) (visibleFirst method.annotations)
  | _ => rfl

theorem innerClass_listed (entry : String × Access) :
    Telling.innerClass ⟨entry.1, fileFlags entry.2⟩ =
      (do let _ ← tell (.within (.innerClass entry.1 (keptFlags entry.2)))) := by
  rw [Telling.innerClass, access_fileFlags]

theorem wholeClass_listed (definition : Definition) :
    Telling.wholeClass definition.listed = definition.told := by
  have flags : Telling.access definition.listed.access = keptFlags definition.access :=
    access_fileFlags definition.access
  have fields : definition.listed.fields.forM Telling.field = definition.fields.forM tellField :=
    (forM_map _ _ _).trans (congrArg _ (funext field_listed))
  have methods : definition.listed.methods.forM Telling.method =
      definition.methods.forM tellMethod :=
    (forM_map _ _ _).trans (congrArg _ (funext method_listed))
  have annotations : definition.listed.attributes.annotations.forM
      (Telling.annotationUse .wholeClass) =
        (visibleFirst definition.annotations).forM (tellUse .wholeClass) :=
    forM_annotationUse .wholeClass (visibleFirst definition.annotations)
  have innerClasses : definition.listed.attributes.innerClasses.forM Telling.innerClass =
      definition.innerClasses.forM (fun entry => do
        let _ ← tell (.within (.innerClass entry.1 (keptFlags entry.2)))) :=
    (forM_map _ _ _).trans (congrArg _ (funext innerClass_listed))
  rw [Telling.wholeClass, told, flags, fields, methods, annotations, innerClasses]
  rfl

end Definition

/-! ## Reading the file -/

/-- Reading the file of a definition has the outcome of telling the definition. -/
theorem readClass_bytes (definition : Definition) (fits : definition.Fits)
    (source : Short (definition.simpleName ++ ".java")) :
    readClass definition.bytes = definition.outcome := by
  have reads := reads_definition fits source 0 []
  rw [List.append_nil] at reads
  have listed : WrittenClass.ofBytes definition.bytes = .ok definition.listed := by
    rw [WrittenClass.ofBytes, Input.ofBytes, reads]
    rfl
  rw [readClass, listed, Definition.outcome]
  dsimp only
  rw [WrittenClass.assemble, Definition.wholeClass_listed]
  cases definition.told {} with
  | error error => rfl
  | ok result => rfl

/-- A class with a member of each kind and annotations inside others. -/
def widget : Definition where
  name := "com/acme/Widget"
  interfaces := ["java/io/Serializable"]
  signature := some "Ljava/lang/Object;Ljava/io/Serializable;"
  fields :=
    [{ name := "LIMIT", descriptor := "J", access := Access.accStatic.union Access.accFinal,
       constant := some (.long 7) }]
  methods := [{ name := "run", descriptor := "()V", exceptions := ["java/io/IOException"] }]
  annotations :=
    [{ descriptor := "Lcom/acme/Tag;", isVisible := false,
       elements :=
        [("levels", .array [.leaf (.enumConstant "Lcom/acme/Level;" "HIGH"), .leaf (.char 'x')]),
          ("by", .nested "Lcom/acme/By;" [("name", .leaf (.string "me"))])] }]
  innerClasses := [("com/acme/Widget$Part", Access.accPublic)]

theorem annotationsFit_nil : AnnotationsFit [] :=
  ⟨by decide, fun _ member => absurd member List.not_mem_nil, by decide, by decide⟩

theorem readClass_bytes_widget :
    widget.Fits ∧ Short (widget.simpleName ++ ".java") ∧
      readClass widget.bytes = widget.outcome := by
  have elements : ∀ usage ∈ widget.annotations, usage.Fits := by
    intro usage member
    obtain rfl := List.mem_singleton.mp member
    refine ⟨by decide, by decide, ?_⟩
    simp only [ElementsFit, Element.Fits, ItemsFit, LeafFits, IsDescriptor]
    decide
  have fits : widget.Fits :=
    { version := by decide
      name := by decide
      superclass := by decide
      interfaceCount := by decide
      interfaces := by decide
      signature := by decide
      fieldCount := by decide
      fields := by
        intro field member
        obtain rfl := List.mem_singleton.mp member
        refine ⟨by decide, by decide, by decide, ?_, annotationsFit_nil⟩
        intro constant known
        cases known
        trivial
      methodCount := by decide
      methods := by
        intro method member
        obtain rfl := List.mem_singleton.mp member
        exact ⟨by decide, by decide, by decide, by decide, by decide, annotationsFit_nil⟩
      annotations := ⟨by decide, elements, by decide, by decide⟩
      innerClassCount := by decide
      innerClasses := by decide
      slots := by decide +kernel }
  have source : Short (widget.simpleName ++ ".java") := by decide
  exact ⟨fits, source, readClass_bytes widget fits source⟩

/-! ## A name too long for its source file -/

/-- A class of which nothing but the name is written. -/
def named (name : String) : Definition where
  name := name
  superclass := none

theorem simpleName_named {name : String} (noSlash : '/' ∉ name.toList) :
    (named name).simpleName = name := by
  have whole : name.toList.reverse.takeWhile (· ≠ '/') = name.toList.reverse := by
    rw [List.takeWhile_eq_self_iff]
    intro c member
    refine decide_eq_true ?_
    rintro rfl
    exact noSlash (List.mem_reverse.mp member)
  rw [Definition.simpleName, named, whole, List.reverse_reverse, String.ofList_toList]

theorem map_apply {α β : Type} (f : α → β) (step : StateM PoolDraft α) (draft : PoolDraft) :
    (f <$> step) draft = (f (step draft).1, (step draft).2) :=
  rfl

theorem bind_apply {α β : Type} (step : StateM PoolDraft α) (next : α → StateM PoolDraft β)
    (draft : PoolDraft) : (step >>= next) draft = next (step draft).1 (step draft).2 :=
  rfl

theorem draft_named {name : String} (noSlash : '/' ∉ name.toList) (other : name ≠ "SourceFile") :
    ((named name).bodyBytes {}).2 =
      ⟨[(.utf8 "SourceFile", 4), (.utf8 (name ++ ".java"), 3), (.classRef 1, 2), (.utf8 name, 1)],
        5⟩ := by
  have longer : name ≠ name ++ ".java" := by
    intro same
    have lengths := congrArg String.length same
    rw [String.length_append] at lengths
    have : (".java").length = 5 := rfl
    omega
  have notSource : name ++ ".java" ≠ "SourceFile" := by
    intro same
    have ends := congrArg (fun text => text.toList.getLast?) same
    rw [String.toList_append] at ends
    simp at ends
  rw [Definition.bodyBytes, Definition.attributeBytes, simpleName_named noSlash]
  simp [named, slot, PoolDraft.className, PoolDraft.utf8, PoolDraft.intern, optionalClass, counted,
    annotationAttributes, annotationGroup, optionally, namedAttribute, map_apply, bind_apply,
    Entry.width, Entry.isWide, longer, notSource, other]

theorem ne_sourceFile {name : String} (full : (ModifiedUtf8.encode name).length = 0xFFFF) :
    name ≠ "SourceFile" := by
  rintro rfl
  revert full
  decide

/-- A source file has the extension in its name cut off when the rest of the name
takes all the bytes that can be counted. -/
theorem bytes_sourceFile {name : String} (full : (ModifiedUtf8.encode name).length = 0xFFFF) :
    (Entry.utf8 (name ++ ".java")).bytes =
      (Entry.utf8 name).bytes ++ ModifiedUtf8.encode ".java" := by
  have cut : min (ModifiedUtf8.encode (name ++ ".java")).length 0xFFFF = 0xFFFF := by
    rw [ModifiedUtf8.encode_append, List.length_append, full]
    decide
  rw [Entry.bytes, Entry.bytes, cut, full, ModifiedUtf8.encode_append]
  simp

/-- The part of the pool up to the dot of the extension. -/
def poolToDot (name : String) : List UInt8 :=
  (Entry.utf8 name).bytes ++ ((Entry.classRef 1).bytes ++ ((Entry.utf8 name).bytes ++ [0x2E]))

theorem refuses_poolToDot {name : String} (short : Short name) :
    Refuses (ConstantPool.readSlots 4 1) (poolToDot name) (.unknownTag 0x2E 4) := by
  have nameFits : (Entry.utf8 name).Fits 2 := short
  have classFits : (Entry.classRef 1).Fits 2 := (by decide : 1 < 2)
  have dot : Refuses (Entry.read 4) [0x2E] (.unknownTag 0x2E 4) :=
    (reads_u1 (n := 0x2E) (by decide)).refuses fun _ _ => rfl
  refine (Entry.reads_bytes nameFits (by decide) 1).refuses (Refuses.bind ?_)
  refine (Entry.reads_bytes classFits (by decide) 2).refuses (Refuses.bind ?_)
  refine (Entry.reads_bytes nameFits (by decide) 3).refuses (Refuses.bind ?_)
  exact dot.bind

/-- The file of a class is not read when its name takes as many bytes as can be
counted. -/
theorem readClass_of_full_name {name : String} (noSlash : '/' ∉ name.toList)
    (full : (ModifiedUtf8.encode name).length = 0xFFFF) :
    readClass (named name).bytes = .error (Error.unknownTag 0x2E 4).toProblem := by
  have extension : ModifiedUtf8.encode ".java" = 0x2E :: [0x6A, 0x61, 0x76, 0x61] := by decide
  have refuses : Refuses WrittenClass.read
      (bigEndian 4 magic ++ (bigEndian 2 0 ++ (bigEndian 2 52 ++ (bigEndian 2 5 ++
        poolToDot name)))) (.unknownTag 0x2E 4) := by
    refine (reads_u4 (by decide)).refuses ?_
    refine (reads_u2 (by decide)).refuses ((reads_u2 (by decide)).refuses (Refuses.bind ?_))
    exact (reads_u2 (by decide)).refuses (refuses_poolToDot (Nat.le_of_eq full)).bind
  have bytes : (named name).bytes =
      bigEndian 4 magic ++ (bigEndian 2 0 ++ (bigEndian 2 52 ++ (bigEndian 2 5 ++
        poolToDot name))) ++ ([0x6A, 0x61, 0x76, 0x61] ++ (Entry.utf8 "SourceFile").bytes ++
          ((named name).bodyBytes {}).1) := by
    rw [Definition.bytes_eq, draft_named noSlash (ne_sourceFile full), PoolDraft.bytes, poolToDot]
    simp only [List.reverse_cons, List.reverse_nil, List.nil_append, List.cons_append,
      List.flatMap_cons, List.flatMap_nil, bytes_sourceFile full, extension, List.append_assoc]
    rfl
  have fails : WrittenClass.ofBytes (named name).bytes = .error (.unknownTag 0x2E 4) := by
    rw [WrittenClass.ofBytes, bytes, Input.ofBytes, refuses]
    rfl
  rw [readClass, fails]

theorem fits_named {name : String} (short : Short name) (noSlash : '/' ∉ name.toList)
    (other : name ≠ "SourceFile") : (named name).Fits :=
  { version := (by decide : 52 < 0x10000)
    name := short
    superclass := fun _ known => absurd known (Option.not_mem_none _)
    interfaceCount := Nat.zero_le _
    interfaces := fun _ member => absurd member List.not_mem_nil
    signature := fun _ known => absurd known (Option.not_mem_none _)
    fieldCount := Nat.zero_le _
    fields := fun _ member => absurd member List.not_mem_nil
    methodCount := Nat.zero_le _
    methods := fun _ member => absurd member List.not_mem_nil
    annotations := annotationsFit_nil
    innerClassCount := Nat.zero_le _
    innerClasses := fun _ member => absurd member List.not_mem_nil
    slots := by
      rw [draft_named noSlash other]
      exact (by decide : 5 ≤ 0xFFFF) }

/-- Telling a definition is no way to a malformed class file. -/
theorem outcome_ne_malformed {definition : Definition} {problem : Problem}
    (fails : definition.outcome = .error problem) : problem.kind ≠ .malformedClassFile := by
  rw [Definition.outcome] at fails
  split at fails
  case h_1 error _ =>
    obtain rfl := Except.error.inj fails
    change error.problemKind ≠ _
    cases error <;> exact ProblemKind.noConfusion
  case h_2 => cases fails

/-- Such a class fits its file but is not read from it. -/
theorem misread_of_full_name {name : String} (noSlash : '/' ∉ name.toList)
    (full : (ModifiedUtf8.encode name).length = 0xFFFF) :
    (named name).Fits ∧ readClass (named name).bytes ≠ (named name).outcome := by
  have fits : (named name).Fits := fits_named (Nat.le_of_eq full) noSlash (ne_sourceFile full)
  refine ⟨fits, fun same => ?_⟩
  rw [readClass_of_full_name noSlash full] at same
  exact outcome_ne_malformed same.symm rfl

/-- A name of the letter a, over and over. -/
def letters (count : Nat) : String :=
  String.ofList (List.replicate count 'a')

theorem length_encode_letters (count : Nat) :
    (ModifiedUtf8.encode (letters count)).length = count := by
  have bytes : ModifiedUtf8.encode (letters count) = List.replicate count 0x61 := by
    rw [ModifiedUtf8.encode, letters, String.toList_ofList]
    induction count with
    | zero => rfl
    | succ count inductionHypothesis =>
      have first : [Text.Utf16.unitsOf 'a'].flatten.flatMap ModifiedUtf8.bytesOf = [0x61] := by
        decide
      rw [List.replicate_succ, List.flatMap_cons, List.flatMap_append, inductionHypothesis,
        List.replicate_succ]
      exact congrArg (· ++ _) first
  rw [bytes, List.length_replicate]

theorem noSlash_letters (count : Nat) : '/' ∉ (letters count).toList := by
  intro member
  rw [letters, String.toList_ofList, List.mem_replicate] at member
  exact absurd member.2 (by decide)

/-- The name of a class can have room where that of its source file has none. -/
theorem readClass_bytes_letters :
    (named (letters 0xFFFF)).Fits ∧
      readClass (named (letters 0xFFFF)).bytes ≠ (named (letters 0xFFFF)).outcome :=
  misread_of_full_name (noSlash_letters _) (length_encode_letters _)

end JvmDiff.ClassFile
