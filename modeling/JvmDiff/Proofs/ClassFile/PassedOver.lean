import JvmDiff.Proofs.ClassFile.Layout

/-!
# Attributes that are passed over

Attributes of other names than the six that are read leave no trace.  In every table of a class file
they may be given other bodies, left out or put in, and the file is read as before.
-/

namespace JvmDiff.ClassFile

open Reader

/-! ## Names -/

/-- The names of the attributes that are read. -/
def knownNames : List String :=
  ["Signature", "ConstantValue", "Exceptions", "RuntimeVisibleAnnotations",
    "RuntimeInvisibleAnnotations", "InnerClasses"]

theorem readBody_eq_none {name : String} (unknown : name ∉ knownNames) (pool : ConstantPool)
    (found : Attributes) : Attributes.readBody pool found name = none := by
  simp only [knownNames, List.mem_cons, List.not_mem_nil, or_false, not_or] at unknown
  obtain ⟨signature, constant, exceptions, visible, invisible, innerClasses⟩ := unknown
  simp only [Attributes.readBody, signature, constant, exceptions, visible, invisible,
    innerClasses, or_self, if_false]

/-- The slot has a name, which is none of those that are read. -/
def ConstantPool.PassesOver (pool : ConstantPool) (index : UInt16) : Prop :=
  ∃ name, pool.utf8 index.toNat = .ok name ∧ name ∉ knownNames

theorem LaidAttribute.absorbed_of_passesOver {pool : ConstantPool} {laid : LaidAttribute}
    (passesOver : pool.PassesOver laid.name) (found : Attributes) :
    laid.absorbed pool found = .ok found := by
  obtain ⟨name, named, unknown⟩ := passesOver
  simp only [LaidAttribute.absorbed, named, bind, Except.bind, readBody_eq_none unknown]
  rfl

/-! ## Retouched files -/

section Retouched

variable (pool : ConstantPool)

/-- A table of attributes in which some that are passed over have other bodies, are left out or
are new. -/
inductive RetouchedTable : List LaidAttribute → List LaidAttribute → Prop
  | nil : RetouchedTable [] []
  | kept (laid : LaidAttribute) {first second : List LaidAttribute} :
      RetouchedTable first second → RetouchedTable (laid :: first) (laid :: second)
  | replaced {laid other : LaidAttribute} {first second : List LaidAttribute} :
      pool.PassesOver laid.name → other.name = laid.name →
      RetouchedTable first second → RetouchedTable (laid :: first) (other :: second)
  | removed {laid : LaidAttribute} {first second : List LaidAttribute} :
      pool.PassesOver laid.name →
      RetouchedTable first second → RetouchedTable (laid :: first) second
  | inserted {laid : LaidAttribute} {first second : List LaidAttribute} :
      pool.PassesOver laid.name →
      RetouchedTable first second → RetouchedTable first (laid :: second)

/-- A member with a retouched table of attributes. -/
structure LaidMember.Retouched (laid other : LaidMember) : Prop where
  same : other = { laid with attributes := other.attributes }
  attributes : RetouchedTable pool laid.attributes.items other.attributes.items

end Retouched

/-- A class file in which tables of attributes are retouched, those of fields, of methods and of the
class. -/
structure Layout.Retouched (layout other : Layout) : Prop where
  same : other = { layout with
    fields := other.fields, methods := other.methods, attributes := other.attributes }
  fields : List.Forall₂ (LaidMember.Retouched layout.pool) layout.fields.items other.fields.items
  methods :
    List.Forall₂ (LaidMember.Retouched layout.pool) layout.methods.items other.methods.items
  attributes : RetouchedTable layout.pool layout.attributes.items other.attributes.items

section Listed

variable {pool : ConstantPool}

theorem RetouchedTable.foldlM_absorbed {first second : List LaidAttribute}
    (retouched : RetouchedTable pool first second) (found : Attributes) :
    second.foldlM (LaidAttribute.absorbed pool) found =
      first.foldlM (LaidAttribute.absorbed pool) found := by
  induction retouched generalizing found with
  | nil => rfl
  | kept laid _ inductionHypothesis =>
    rw [List.foldlM_cons, List.foldlM_cons]
    exact congrArg (laid.absorbed pool found >>= ·) (funext inductionHypothesis)
  | replaced passesOver sameName _ inductionHypothesis =>
    rw [List.foldlM_cons, List.foldlM_cons, LaidAttribute.absorbed_of_passesOver passesOver,
      LaidAttribute.absorbed_of_passesOver (sameName ▸ passesOver)]
    exact inductionHypothesis found
  | removed passesOver _ inductionHypothesis =>
    rw [List.foldlM_cons, LaidAttribute.absorbed_of_passesOver passesOver]
    exact inductionHypothesis found
  | inserted passesOver _ inductionHypothesis =>
    rw [List.foldlM_cons, LaidAttribute.absorbed_of_passesOver passesOver]
    exact inductionHypothesis found

theorem LaidMember.Retouched.listed_eq {laid other : LaidMember}
    (retouched : LaidMember.Retouched pool laid other) :
    other.listed pool = laid.listed pool := by
  obtain ⟨same, attributes⟩ := retouched
  have said := attributes.foldlM_absorbed {}
  rw [same]
  simp only [LaidMember.listed, absorbedAll, said]

theorem mapM_listed_eq {first second : List LaidMember}
    (retouched : List.Forall₂ (LaidMember.Retouched pool) first second) :
    second.mapM (LaidMember.listed pool) = first.mapM (LaidMember.listed pool) := by
  induction retouched with
  | nil => rfl
  | cons member _ inductionHypothesis =>
    rw [List.mapM_cons, List.mapM_cons, member.listed_eq, inductionHypothesis]

theorem Layout.Retouched.listed_eq {layout other : Layout} (retouched : layout.Retouched other) :
    other.listed = layout.listed := by
  obtain ⟨same, fields, methods, attributes⟩ := retouched
  have said := attributes.foldlM_absorbed {}
  rw [same]
  simp only [Layout.listed, LaidBody.listed, absorbedAll, said, mapM_listed_eq fields,
    mapM_listed_eq methods]

end Listed

/-- What is read from a class file does not depend on the attributes that are passed over: every
file that lists a class is laid out in tables, and with these retouched it reads the same. -/
theorem readClass_retouched {bytes : List UInt8} {written : WrittenClass}
    (lists : WrittenClass.ofBytes bytes = .ok written) :
    (∃ layout : Layout, layout.bytes = bytes) ∧
      ∀ layout other : Layout, layout.bytes = bytes → layout.Retouched other →
        readClass other.bytes = readClass bytes := by
  refine ⟨Layout.exists_of_ofBytes lists, ?_⟩
  rintro layout other rfl retouched
  rw [readClass, readClass, other.ofBytes_bytes, layout.ofBytes_bytes, retouched.listed_eq]

/-- A class A, and the names of code and of a method. -/
def runnerPool : ConstantPool :=
  ⟨[none, some (.utf8 "A"), some (.classRef 1), some (.utf8 "Code"), some (.utf8 "run"),
    some (.utf8 "()V")]⟩

def runnerPoolBytes : List UInt8 :=
  [0, 6, 1, 0, 1, 65, 7, 0, 1, 1, 0, 4, 67, 111, 100, 101, 1, 0, 3, 114, 117, 110,
    1, 0, 3, 40, 41, 86]

theorem reads_runnerPool : Reads ConstantPool.read runnerPoolBytes runnerPool := by
  have reads : ConstantPool.read ⟨0, runnerPoolBytes⟩ = .ok (runnerPool, ⟨28, []⟩) := by
    decide +kernel
  obtain ⟨taken, split, known⟩ := Layout.takes_pool _ _ _ reads
  rwa [← split.trans (List.append_nil taken)] at known

/-- A class with a method, by the attributes of the method and of the class. -/
def runner (methodAttributes attributes : Counted LaidAttribute) : Layout where
  minorVersion := 0
  version := 52
  poolBytes := runnerPoolBytes
  pool := runnerPool
  readsPool := reads_runnerPool
  access := 0x21
  name := 2
  superclass := 0
  interfaces := ⟨[], by simp⟩
  fields := ⟨[], by simp⟩
  methods := ⟨[⟨1, 4, 5, methodAttributes⟩], by simp⟩
  attributes := attributes

/-- The method has code. -/
def runnerWithCode : Layout :=
  runner ⟨[⟨3, [0, 1, 2], by decide⟩], by decide⟩ ⟨[], by decide⟩

/-- The code is taken from the method, and other code is put into the class. -/
def runnerRetouched : Layout :=
  runner ⟨[], by decide⟩ ⟨[⟨3, [0xFF], by decide⟩], by decide⟩

theorem retouched_runner : runnerWithCode.Retouched runnerRetouched := by
  have passesOver : runnerPool.PassesOver 3 := ⟨"Code", by decide, by decide⟩
  exact
    { same := rfl
      fields := .nil
      methods := .cons ⟨rfl, .removed passesOver .nil⟩ .nil
      attributes := .inserted passesOver .nil }

theorem readClass_retouched_runner :
    ∃ written, WrittenClass.ofBytes runnerWithCode.bytes = .ok written ∧
      runnerWithCode.Retouched runnerRetouched ∧
        readClass runnerRetouched.bytes = readClass runnerWithCode.bytes := by
  have succeeds : (WrittenClass.ofBytes runnerWithCode.bytes).toOption.isSome = true := by
    decide +kernel
  cases lists : WrittenClass.ofBytes runnerWithCode.bytes with
  | error error =>
      rw [lists] at succeeds
      cases succeeds
  | ok written =>
      exact ⟨written, rfl, retouched_runner,
        (readClass_retouched lists).2 _ _ rfl retouched_runner⟩

end JvmDiff.ClassFile
