import JvmDiff.Assembly.Basic

/-!
# What an accepted event does

One lemma for each kind of event says under what condition an open class accepts it, what it
answers and what the class is afterwards.
-/

namespace JvmDiff.Assembly

/-- The field that a header declares with a type. -/
def FieldHeader.declared (header : FieldHeader) (type : String) : Field.Declared where
  name := header.name
  type := type
  access := header.access
  constant := header.constant

namespace MethodHeader

def constructor (header : MethodHeader) (type : Signature.MethodSignature) :
    Member.Declared where
  name := Member.constructorName
  access := header.access
  arguments := type.arguments
  exceptions := header.exceptions

/-- The flags of the method of a class: public and nothing else stands for a
method with a body in an interface. -/
def methodAccess (header : MethodHeader) (classAccess : Access) : Access :=
  if classAccess.has Access.accInterface ∧ header.access = Access.accPublic then
    Access.accPublic.union Access.accDefault
  else
    header.access

def method (header : MethodHeader) (classAccess : Access) (type : Signature.MethodSignature) :
    Member.Declared where
  name := header.name
  access := header.methodAccess classAccess
  genericTypes := type.typeParameters
  returnType := some type.returnType
  arguments := type.arguments
  exceptions := header.exceptions

/-- The constructor or method that a header declares with its types. -/
def declared (header : MethodHeader) (classAccess : Access) (type : Signature.MethodSignature) :
    Member.Declared :=
  if header.name = Member.constructorName then header.constructor type
  else header.method classAccess type

theorem name_declared (header : MethodHeader) (classAccess : Access)
    (type : Signature.MethodSignature) : (header.declared classAccess type).name = header.name := by
  rw [declared]
  split
  case isTrue isConstructor => exact isConstructor.symm
  case isFalse => rfl

theorem isConstructor_declared (header : MethodHeader) (classAccess : Access)
    (type : Signature.MethodSignature) :
    (header.declared classAccess type).isConstructor =
      decide (header.name = Member.constructorName) := by
  by_cases isConstructor : header.name = Member.constructorName
  · simp [declared, isConstructor, constructor, Member.Declared.isConstructor]
  · simp [declared, isConstructor, method, Member.Declared.isConstructor]

end MethodHeader

namespace OpenClass

variable {c next : OpenClass} {answer : Answer}

theorem accept_field {header : FieldHeader}
    (accepted : c.accept (.field header) = .ok (answer, next)) :
    (c.skipsField header.name = true ∧ answer = .skipped ∧ next = c) ∨
      ∃ type, Signature.fieldType header.descriptor header.signature = .ok type ∧
        answer = .field c.fields.length ∧
        next = { c with fields := c.fields ++ [header.declared type] } := by
  rw [accept, declareField] at accepted
  cases named : requireName .field header.name with
  | error error =>
      rw [named] at accepted
      cases accepted
  | ok _ =>
      rw [named] at accepted
      cases skips : c.skipsField header.name with
      | true =>
          rw [skips] at accepted
          cases accepted
          exact Or.inl ⟨rfl, rfl, rfl⟩
      | false =>
          rw [skips] at accepted
          cases typed : Signature.fieldType header.descriptor header.signature with
          | error malformed =>
              rw [typed] at accepted
              cases accepted
          | ok type =>
              rw [typed] at accepted
              cases accepted
              exact Or.inr ⟨type, rfl, rfl, rfl⟩

theorem methodAccess_eq (c : OpenClass) (header : MethodHeader) :
    c.methodAccess header.access = header.methodAccess c.head.access := by
  rw [methodAccess, MethodHeader.methodAccess]
  by_cases plain : c.head.access.has Access.accInterface ∧ header.access = Access.accPublic
  · simp [plain]
  · simp [plain]

theorem declareMethod_eq {header : MethodHeader} {member? : Option Member.Declared}
    (declared : c.declareMethod header = .ok member?) :
    (skipsMethod header.name = true ∧ member? = none) ∨
      ∃ type, Signature.methodType header.descriptor header.signature = .ok type ∧
        member? = some (header.declared c.head.access type) := by
  rw [declareMethod] at declared
  cases named : requireName .method header.name with
  | error error =>
      rw [named] at declared
      cases declared
  | ok _ =>
      rw [named] at declared
      cases skips : skipsMethod header.name with
      | true =>
          rw [skips] at declared
          cases declared
          exact Or.inl ⟨rfl, rfl⟩
      | false =>
          rw [skips] at declared
          cases typed : Signature.methodType header.descriptor header.signature with
          | error malformed =>
              rw [typed] at declared
              cases declared
          | ok type =>
              rw [typed] at declared
              refine Or.inr ⟨type, rfl, ?_⟩
              by_cases isConstructor : header.name = Member.constructorName
              · rw [MethodHeader.declared, if_pos isConstructor]
                simp only [if_pos isConstructor] at declared
                cases declared
                rfl
              · rw [MethodHeader.declared, if_neg isConstructor, MethodHeader.method,
                  ← methodAccess_eq]
                simp only [if_neg isConstructor] at declared
                cases declared
                rfl

theorem accept_method {header : MethodHeader}
    (accepted : c.accept (.method header) = .ok (answer, next)) :
    (skipsMethod header.name = true ∧ answer = .skipped ∧ next = c) ∨
      ∃ type, Signature.methodType header.descriptor header.signature = .ok type ∧
        answer = .member c.members.length ∧
        next = { c with members := c.members ++ [header.declared c.head.access type] } := by
  rw [accept] at accepted
  cases declared : c.declareMethod header with
  | error error =>
      rw [declared] at accepted
      cases accepted
  | ok member? =>
      rw [declared] at accepted
      rcases declareMethod_eq declared with ⟨skips, rfl⟩ | ⟨type, typed, rfl⟩
      · cases accepted
        exact Or.inl ⟨skips, rfl, rfl⟩
      · cases accepted
        exact Or.inr ⟨type, typed, rfl, rfl⟩

theorem accept_method_of_typed {header : MethodHeader} {type : Signature.MethodSignature}
    (named : Text.isBlank header.name = false) (kept : skipsMethod header.name = false)
    (typed : Signature.methodType header.descriptor header.signature = .ok type) :
    c.accept (.method header) = .ok (.member c.members.length,
      { c with members := c.members ++ [header.declared c.head.access type] }) := by
  have required : requireName .method header.name = .ok () := by simp [requireName, named]
  rw [accept, declareMethod, required, typed]
  by_cases isConstructor : header.name = Member.constructorName
  · rw [MethodHeader.declared, if_pos isConstructor]
    simp only [kept, if_pos isConstructor]
    rfl
  · rw [MethodHeader.declared, if_neg isConstructor, MethodHeader.method, ← methodAccess_eq]
    simp only [kept, if_neg isConstructor]
    rfl

theorem accept_annotationUse {target : Target} {descriptor : String}
    (accepted : c.accept (.annotationUse target descriptor) = .ok (answer, next)) :
    c.requireTarget target = .ok () ∧ answer = .annotationUse c.annotations.length ∧
      next =
        { c with
          annotations := c.annotations ++ [(target, AnnotationUse.ofDescriptor descriptor)] } := by
  rw [accept] at accepted
  cases named : requireName .annotationUse descriptor with
  | error error =>
      rw [named] at accepted
      cases accepted
  | ok _ =>
      rw [named] at accepted
      cases found : c.requireTarget target with
      | error error =>
          rw [found] at accepted
          cases accepted
      | ok _ =>
          rw [found] at accepted
          cases accepted
          exact ⟨rfl, rfl, rfl⟩

theorem accept_annotationValue {handle : Nat} {key : String} {value : ElementValue}
    (accepted : c.accept (.annotationValue handle key value) = .ok (answer, next)) :
    handle < c.annotations.length ∧ answer = .done ∧ next = c.setElement handle key value := by
  rw [accept] at accepted
  by_cases known : handle < c.annotations.length
  · rw [if_pos known] at accepted
    cases accepted
    exact ⟨known, rfl, rfl⟩
  · rw [if_neg known] at accepted
    cases accepted

theorem accept_innerClass {name : String} {access : Access}
    (accepted : c.accept (.innerClass name access) = .ok (answer, next)) :
    answer = .done ∧
      ((skipsInnerClass name = true ∧ next = c) ∨
        (skipsInnerClass name = false ∧
          next =
            { c with
              head :=
                { c.head with
                  innerClasses := c.head.innerClasses ++ [InnerClass.ofName name access] } })) := by
  rw [accept] at accepted
  cases named : requireName .innerClass name with
  | error error =>
      rw [named] at accepted
      cases accepted
  | ok _ =>
      rw [named] at accepted
      cases skips : skipsInnerClass name with
      | true =>
          rw [skips] at accepted
          cases accepted
          exact ⟨rfl, Or.inl ⟨rfl, rfl⟩⟩
      | false =>
          rw [skips] at accepted
          cases accepted
          exact ⟨rfl, Or.inr ⟨rfl, rfl⟩⟩

end OpenClass

end JvmDiff.Assembly
