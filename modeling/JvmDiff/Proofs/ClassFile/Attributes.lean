import JvmDiff.Proofs.ClassFile.Elements

/-!
# Reading back attributes

An attribute has an effect on what the attributes before it said.  Reading the attributes that are
written has the effects of all of them, one after another.
-/

namespace JvmDiff.ClassFile

open Reader

/-! ## Annotations -/

theorem gathers_annotationBytes {usage : AnnotationDefinition} (fits : usage.Fits) :
    Gathers usage.bytes fun pool bytes =>
      bytes.length = usage.size ∧ ∀ depth, usage.size ≤ depth →
        Reads (AnnotationEntry.read pool (readValue pool depth)) bytes usage.listed := by
  refine (gathers_text fits.descriptor).bind fun type =>
    (gathers_elements _ fits.elements).map fun pool parts reads atType => ?_
  refine ⟨?_, fun depth deep => ?_⟩
  · rw [List.length_append, atType.length, length_countedBytes, reads.length,
      AnnotationDefinition.size, ← Nat.add_assoc]
  · rw [AnnotationDefinition.size] at deep
    refine reads_annotationEntry atType ?_ reads (by omega)
    rw [elementValues_eq_map, List.length_map]
    exact fits.length

theorem gathers_group {annotations : List AnnotationDefinition}
    (fits : ∀ usage ∈ annotations, usage.Fits) (short : annotations.length ≤ 0xFFFF) :
    Gathers (counted AnnotationDefinition.bytes annotations) fun pool bytes =>
      bytes.length = groupSize annotations ∧
        Reads (readAnnotations pool) bytes (annotations.map AnnotationDefinition.listed) := by
  refine (gathers_mapM fun usage member => gathers_annotationBytes (fits usage member)).map ?_
  intro pool items each
  have reads : ReadsParts (fun depth => AnnotationEntry.read pool (readValue pool depth))
      (annotations.map AnnotationDefinition.size).sum (annotations.map AnnotationDefinition.listed)
      items := by
    clear fits short
    induction each with
    | nil => exact readsParts_nil _
    | cons first _ inductionHypothesis =>
      exact ReadsParts.cons first.1 first.2 inductionHypothesis
  have length : (countedBytes items).length = groupSize annotations := by
    rw [length_countedBytes, reads.length, groupSize]
  refine ⟨length, fun position rest => ?_⟩
  -- The reader goes as deep as there are bytes left, which is deep enough for any size.
  have deep : (annotations.map AnnotationDefinition.size).sum ≤
      (countedBytes items ++ rest).length + 1 := by
    rw [List.length_append, length, groupSize]
    omega
  have parts := reads.reads _ deep
  exact reads_counted (each.length_eq ▸ short) parts position rest

/-! ## Lists of parts -/

/-- Parts that are each read as a value are read as the list of values. -/
theorem gathers_counted {α β : Type} {write : α → Written} {read : ConstantPool → Reader β}
    (value : α → β) {parts : List α} (short : parts.length ≤ 0xFFFF)
    (each : ∀ part ∈ parts, Gathers (write part) fun pool bytes =>
      Reads (read pool) bytes (value part)) :
    Gathers (counted write parts) fun pool bytes =>
      Reads (Reader.counted (read pool)) bytes (parts.map value) := by
  refine (gathers_mapM each).map fun pool items reads => ?_
  refine reads_counted (reads.length_eq ▸ short) ?_
  rw [List.forall₂_map_right_iff]
  exact reads.flip

theorem gathers_length {α : Type} {write : α → Written} {width : Nat} {parts : List α}
    (each : ∀ part ∈ parts, Gathers (write part) fun _ bytes => bytes.length = width) :
    Gathers (counted write parts) fun _ bytes => bytes.length = 2 + width * parts.length := by
  refine (gathers_mapM each).map fun pool items lengths => ?_
  rw [length_countedBytes]
  congr 1
  clear each
  induction lengths with
  | nil => rfl
  | cons first _ inductionHypothesis =>
    rw [List.flatten_cons, List.length_append, first, inductionHypothesis, List.length_cons,
      Nat.mul_succ, Nat.add_comm]

theorem getD_unlessEmpty {α : Type} (values : List α) :
    (if values.isEmpty then none else some values).getD [] = values := by
  cases values <;> rfl

theorem eq_of_mem_unlessEmpty {α : Type} {values found : List α}
    (member : found ∈ (if values.isEmpty then none else some values)) : values = found := by
  cases values with
  | nil => cases member
  | cons value values => exact Option.some.inj member

/-! ## Attributes -/

/-- The body of an attribute has the effect on what was found before, none if
the attribute is not known. -/
def ReadsBody (pool : ConstantPool) (name : String) (effect : Attributes → Attributes)
    (body : List UInt8) : Prop :=
  ∀ found, match Attributes.readBody pool found name with
    | none => effect found = found
    | some read => Reads read body (effect found)

/-- The items are attributes, no more than the given number, with an effect on
what was found before. -/
def ReadsAttributes (pool : ConstantPool) (most : Nat) (effect : Attributes → Attributes)
    (items : List (List UInt8)) : Prop :=
  items.length ≤ most ∧
    ∀ found, Reads (Attributes.readMany pool items.length found) items.flatten (effect found)

theorem readsAttributes_nil (pool : ConstantPool) (most : Nat) : ReadsAttributes pool most id [] :=
  ⟨Nat.zero_le _, fun found => reads_pure found⟩

theorem readMany_add (pool : ConstantPool) (first second : Nat) (found : Attributes) :
    Attributes.readMany pool (first + second) found =
      Attributes.readMany pool first found >>= Attributes.readMany pool second := by
  induction first generalizing found with
  | zero => rw [Nat.zero_add, Attributes.readMany, pure_bind]
  | succ first inductionHypothesis =>
    rw [Nat.succ_add, Attributes.readMany, Attributes.readMany, bind_assoc]
    exact bind_congr inductionHypothesis

/-- Attributes after others have their effect after the others'. -/
theorem ReadsAttributes.append {pool : ConstantPool} {mostFirst mostSecond : Nat}
    {effectFirst effectSecond : Attributes → Attributes} {first second : List (List UInt8)}
    (readsFirst : ReadsAttributes pool mostFirst effectFirst first)
    (readsSecond : ReadsAttributes pool mostSecond effectSecond second) :
    ReadsAttributes pool (mostFirst + mostSecond) (effectSecond ∘ effectFirst)
      (first ++ second) := by
  refine ⟨?_, fun found => ?_⟩
  · rw [List.length_append]
    exact Nat.add_le_add readsFirst.1 readsSecond.1
  · rw [List.length_append, readMany_add, List.flatten_append]
    exact (readsFirst.2 found).bind (readsSecond.2 _)

theorem ReadsAttributes.read {pool : ConstantPool} {most : Nat}
    {effect : Attributes → Attributes} {items : List (List UInt8)}
    (reads : ReadsAttributes pool most effect items) (few : most ≤ 0xFFFF) :
    Reads (Attributes.read pool) (countedBytes items) (effect {}) := by
  have short := Nat.le_trans reads.1 few
  rw [countedBytes, Nat.min_eq_left short]
  exact (reads_u2 (Nat.lt_succ_of_le short)).bind (reads.2 {})

theorem reads_readOne {pool : ConstantPool} {name : String} {effect : Attributes → Attributes}
    {index body : List UInt8} (atName : AtSlot pool.utf8 name index)
    (short : body.length < 0x100000000) (reads : ReadsBody pool name effect body)
    (found : Attributes) :
    Reads (Attributes.readOne pool found) (index ++ bigEndian 4 body.length ++ body)
      (effect found) := by
  rw [List.append_assoc]
  refine atName.reads_bind ((reads_u4 short).bind ((reads_take body).bind_nil ?_))
  have readsFound := reads found
  cases known : Attributes.readBody pool found name with
  | none =>
    rw [known] at readsFound
    exact reads_result readsFound.symm
  | some read =>
    rw [known] at readsFound
    exact readsFound.within.bind_nil (reads_pure _)

theorem gathers_namedAttribute {name : String} (shortName : Short name) (body : List UInt8) :
    Gathers (namedAttribute name body) fun pool bytes => ∀ effect, body.length < 0x100000000 →
      ReadsBody pool name effect body → ReadsAttributes pool 1 effect [bytes] := by
  refine (PoolDraft.gathers_utf8 shortName).map fun pool index hasAt effect short reads => ?_
  have atName : AtSlot pool.utf8 name (bigEndian 2 index) :=
    ⟨index, hasAt.bound, utf8_of_get hasAt.get, rfl⟩
  refine ⟨Nat.le_refl 1, fun found => ?_⟩
  rw [List.flatten_singleton]
  exact (reads_readOne atName short reads found).bind_nil (reads_pure _)

/-- An attribute that is written only if there is something to say. -/
theorem gathers_optionally {α : Type} {write : α → Written} {part : Option α}
    (effect : Option α → Attributes → Attributes) (neutral : effect none = id)
    (gathers : ∀ value ∈ part, Gathers (write value) fun pool bytes =>
      ReadsAttributes pool 1 (effect (some value)) [bytes]) :
    Gathers (optionally write part) fun pool items =>
      ReadsAttributes pool 1 (effect part) items := by
  cases part with
  | none =>
    rw [neutral]
    exact gathers_pure fun pool => readsAttributes_nil pool 1
  | some value => exact (gathers value rfl).map fun _ _ reads => reads

/-! ## What attributes say -/

namespace Attributes

def withSignature (signature : Option String) (found : Attributes) : Attributes :=
  { found with signature := signature.or found.signature }

def withConstant (constant : Option Constant) (found : Attributes) : Attributes :=
  { found with constant := constant.or found.constant }

def withExceptions (exceptions : List String) (found : Attributes) : Attributes :=
  { found with exceptions := found.exceptions ++ exceptions }

def withAnnotations (annotations : List AnnotationEntry) (found : Attributes) : Attributes :=
  { found with annotations := found.annotations ++ annotations }

def withInnerClasses (innerClasses : List InnerEntry) (found : Attributes) : Attributes :=
  { found with innerClasses := found.innerClasses ++ innerClasses }

end Attributes

theorem gathers_signature {signature : Option String}
    (short : ∀ text ∈ signature, Short text) :
    Gathers (optionally signatureAttribute signature) fun pool items =>
      ReadsAttributes pool 1 (Attributes.withSignature signature) items := by
  refine gathers_optionally Attributes.withSignature rfl fun text member => ?_
  refine (gathers_text (short text member)).bind fun body => ?_
  refine (gathers_namedAttribute (by decide) body).imp fun pool bytes reads atText => ?_
  refine reads _ (by rw [atText.length]; decide) fun found => ?_
  exact atText.reads_result (reads_pure _)

theorem gathers_fieldConstant {constant : Option Constant}
    (fits : ∀ value ∈ constant, ConstantFits value) :
    Gathers
      (optionally
        (fun value => do
          let body ← slot (PoolDraft.constant value)
          namedAttribute "ConstantValue" body)
        constant)
      fun pool items => ReadsAttributes pool 1 (Attributes.withConstant constant) items := by
  refine gathers_optionally Attributes.withConstant rfl fun value member => ?_
  refine (gathers_constant (fits value member)).bind fun body => ?_
  refine (gathers_namedAttribute (by decide) body).imp fun pool bytes reads atConstant => ?_
  refine reads _ (by rw [atConstant.length]; decide) fun found => ?_
  exact atConstant.reads_result (reads_pure _)

/-- A group of annotations is an attribute of its own, or nothing. -/
theorem gathers_annotationGroup {name : String} (shortName : Short name)
    (isGroup : name = "RuntimeVisibleAnnotations" ∨ name = "RuntimeInvisibleAnnotations")
    {annotations : List AnnotationDefinition} (fits : ∀ usage ∈ annotations, usage.Fits)
    (short : annotations.length ≤ 0xFFFF) (size : groupSize annotations < 0x100000000) :
    Gathers (annotationGroup name annotations) fun pool items =>
      ReadsAttributes pool 1
        (Attributes.withAnnotations (annotations.map AnnotationDefinition.listed)) items := by
  rw [annotationGroup]
  split
  case isTrue isEmpty =>
    rw [List.isEmpty_iff.mp isEmpty]
    have neutral : Attributes.withAnnotations [] = id := by
      funext found
      rw [Attributes.withAnnotations, List.append_nil, id]
    rw [List.map_nil, neutral]
    exact gathers_pure fun pool => readsAttributes_nil pool 1
  case isFalse =>
    refine (gathers_group fits short).bind fun body => ?_
    refine (gathers_namedAttribute shortName body).map fun pool bytes reads ⟨length, isRead⟩ => ?_
    refine reads _ (by rw [length]; exact size) fun found => ?_
    have known : Attributes.readBody pool found name = some (do
        let annotations ← readAnnotations pool
        return { found with annotations := found.annotations ++ annotations }) := by
      rcases isGroup with rfl | rfl <;> rfl
    rw [known]
    exact isRead.bind_nil (reads_pure _)

theorem gathers_annotationAttributes {annotations : List AnnotationDefinition}
    (fits : AnnotationsFit annotations) :
    Gathers (annotationAttributes annotations) fun pool items =>
      ReadsAttributes pool 2
        (Attributes.withAnnotations ((visibleFirst annotations).map AnnotationDefinition.listed))
        items := by
  have each (isKept : AnnotationDefinition → Bool) :
      (∀ usage ∈ annotations.filter isKept, usage.Fits) ∧
        (annotations.filter isKept).length ≤ 0xFFFF :=
    ⟨fun usage member => fits.each usage (List.mem_of_mem_filter member),
      Nat.le_trans (List.length_filter_le _ _) fits.length⟩
  refine (gathers_annotationGroup (by decide) (Or.inl rfl) (each _).1 (each _).2 fits.visible).bind
    fun visible => (gathers_annotationGroup (by decide) (Or.inr rfl) (each _).1 (each _).2
      fits.invisible).map fun pool invisible readsInvisible readsVisible => ?_
  have joined := readsVisible.append readsInvisible
  have same : Attributes.withAnnotations
      ((visibleFirst annotations).map AnnotationDefinition.listed) =
      Attributes.withAnnotations
          ((annotations.filter (!·.isVisible)).map AnnotationDefinition.listed) ∘
        Attributes.withAnnotations
          ((annotations.filter (·.isVisible)).map AnnotationDefinition.listed) := by
    funext found
    simp [Attributes.withAnnotations, visibleFirst]
  rwa [same]

theorem gathers_classes {names : List String} (shortNames : ∀ name ∈ names, Short name)
    (short : names.length ≤ 0xFFFF) :
    Gathers (counted (fun name => slot (PoolDraft.className name)) names) fun pool bytes =>
      Reads (Reader.counted do Reader.ofExcept (pool.className (← Reader.u2))) bytes names ∧
        bytes.length = 2 + 2 * names.length := by
  have each (name : String) (member : name ∈ names) := gathers_class (shortNames name member)
  have reads := gathers_counted id short fun name member =>
    (each name member).imp fun pool bytes atSlot => atSlot.1.reads
  rw [List.map_id] at reads
  exact reads.and <| gathers_length fun name member =>
    (each name member).imp fun pool bytes atSlot => atSlot.1.length

theorem gathers_exceptions {exceptions : List String}
    (shortNames : ∀ name ∈ exceptions, Short name) (short : exceptions.length ≤ 0xFFFF) :
    Gathers
      (optionally
        (fun names => do
          let body ← counted (fun name => slot (PoolDraft.className name)) names
          namedAttribute "Exceptions" body)
        (if exceptions.isEmpty then none else some exceptions))
      fun pool items => ReadsAttributes pool 1 (Attributes.withExceptions exceptions) items := by
  have neutral : Attributes.withExceptions [] = id := by
    funext found
    rw [Attributes.withExceptions, List.append_nil, id]
  have same := getD_unlessEmpty exceptions
  refine (gathers_optionally (fun part => Attributes.withExceptions (part.getD []))
    neutral fun names member => ?_).imp fun pool items reads => by rwa [same] at reads
  obtain rfl : exceptions = names := eq_of_mem_unlessEmpty member
  refine (gathers_classes shortNames short).bind fun body => ?_
  refine (gathers_namedAttribute (by decide) body).imp fun pool bytes reads ⟨isRead, length⟩ => ?_
  refine reads _ (by omega) fun found => ?_
  exact isRead.bind_nil (reads_pure _)

theorem gathers_innerClass {entry : String × Access} (short : Short entry.1) :
    Gathers (innerClassBytes entry) fun pool bytes =>
      Reads (InnerEntry.read pool) bytes ⟨entry.1, fileFlags entry.2⟩ ∧ bytes.length = 8 := by
  refine (gathers_class short).map fun pool name ⟨⟨index, bound, found, isIndex⟩, _⟩ => ⟨?_, ?_⟩
  · rw [isIndex, List.append_assoc, List.append_assoc]
    refine (reads_u2 bound).bind ((reads_u2 (by decide)).bind ((reads_u2 (by decide)).bind ?_))
    exact (reads_u2 (Nat.mod_lt _ (by decide))).bind_nil (Reads.ofExcept_bind found (reads_pure _))
  · rw [isIndex]
    rfl

theorem gathers_innerClasses {innerClasses : List (String × Access)}
    (shortNames : ∀ entry ∈ innerClasses, Short entry.1) (short : innerClasses.length ≤ 0xFFFF) :
    Gathers
      (optionally
        (fun entries => do
          let body ← counted innerClassBytes entries
          namedAttribute "InnerClasses" body)
        (if innerClasses.isEmpty then none else some innerClasses))
      fun pool items =>
        ReadsAttributes pool 1
          (Attributes.withInnerClasses
            (innerClasses.map fun entry => ⟨entry.1, fileFlags entry.2⟩)) items := by
  have neutral : Attributes.withInnerClasses [] = id := by
    funext found
    rw [Attributes.withInnerClasses, List.append_nil, id]
  have same := getD_unlessEmpty innerClasses
  refine (gathers_optionally (fun (part : Option (List (String × Access))) =>
    Attributes.withInnerClasses ((part.getD []).map fun entry => ⟨entry.1, fileFlags entry.2⟩))
      neutral fun entries member => ?_).imp fun pool items reads => by rwa [same] at reads
  obtain rfl : innerClasses = entries := eq_of_mem_unlessEmpty member
  have each (entry : String × Access) (member : entry ∈ innerClasses) :=
    gathers_innerClass (shortNames entry member)
  have reads := (gathers_counted _ short fun entry member =>
    (each entry member).imp fun pool bytes known => known.1).and <| gathers_length
      fun entry member => (each entry member).imp fun pool bytes known => known.2
  refine reads.bind fun body => ?_
  refine (gathers_namedAttribute (by decide) body).imp fun pool bytes reads ⟨isRead, length⟩ => ?_
  refine reads _ (by omega) fun found => ?_
  exact isRead.bind_nil (reads_pure _)

/-- Attributes that are not known are passed over. -/
theorem gathers_passedOver (name : String) (shortName : Short name)
    (unknown : ∀ pool found, Attributes.readBody pool found name = none) (body : List UInt8) :
    Gathers (namedAttribute name body) fun pool bytes =>
      body.length < 0x100000000 → ReadsAttributes pool 1 id [bytes] := by
  refine (gathers_namedAttribute shortName body).imp fun pool bytes reads short => ?_
  refine reads id short fun found => ?_
  rw [unknown]
  rfl

end JvmDiff.ClassFile
