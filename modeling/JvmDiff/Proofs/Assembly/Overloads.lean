import JvmDiff.Comparison.Classes
import JvmDiff.Proofs.Assembly.Acceptance
import JvmDiff.Proofs.Comparison.Oversights
import JvmDiff.Proofs.Matching.Symmetry
import JvmDiff.Proofs.Signature.Agreement
import JvmDiff.Proofs.Signature.Erasure

/-!
# Overloads

The identity of a member shows the types of its parameters in source form.  Members of one name
whose descriptors have different parameters have therefore different identities, unless a type
variable is shown like something else.
-/

namespace JvmDiff

/-! ## Parts that come and go -/

namespace Comparison

section Parts

variable {α : Type} [Entity α] {topics : PartTopics} {owner : String}
  {inside : α → α → List Change} {previous next : List α} {part : α}

/-- No two parts of different names share a digest. -/
def DigestsTellNames (previous next : List α) : Prop :=
  ∀ first ∈ previous, ∀ second ∈ next,
    Entity.hash first = Entity.hash second → Entity.name first = Entity.name second

theorem mem_ofEntities_of_gone (told : DigestsTellNames previous next) (member : part ∈ previous)
    (gone : Entity.name part ∉ next.map Entity.name) :
    ⟨.error, .removed, topics.removed.key, [.text owner, .text (Entity.name part)]⟩ ∈
      ofEntities topics owner inside previous next := by
  have removed : part ∈ (Matching.ofEntities previous next).removed :=
    Matching.mem_removed_of_notMem told member gone
  rw [ofEntities, ofMatching, List.mem_append, List.mem_append]
  exact Or.inl (Or.inr (List.mem_map_of_mem removed))

theorem mem_ofEntities_of_new (told : DigestsTellNames previous next) (member : part ∈ next)
    (fresh : Entity.name part ∉ previous.map Entity.name) :
    ⟨topics.addedSeverity, .added, topics.added.key, [.text owner, .text (Entity.name part)]⟩ ∈
      ofEntities topics owner inside previous next := by
  have added : part ∈ (Matching.ofEntities previous next).added :=
    Matching.mem_added_of_notMem told member fresh
  rw [ofEntities, ofMatching, List.mem_append]
  exact Or.inr (List.mem_map_of_mem added)

end Parts

/-- The record that the first part is gone and the record that the second is new. -/
def replacement (topics : PartTopics) (owner gone new : String) : List Change :=
  [⟨.error, .removed, topics.removed.key, [.text owner, .text gone]⟩,
    ⟨topics.addedSeverity, .added, topics.added.key, [.text owner, .text new]⟩]

/-- No part with the first name is matched as one that became a part with the
second.  If the versions differ in their digests, and the first name is found in
the earlier version only and the second in the later only, then one part is told
as gone and the other as new. -/
structure KeepsApart {α : Type} [Entity α] (topics : PartTopics) (parts : Class → List α)
    (previous next : Class) (gone new : String) : Prop where
  unmatched : ∀ pair ∈ (Matching.ofEntities (parts previous) (parts next)).modified,
    Entity.name pair.1 = gone → Entity.name pair.2 ≠ new
  told : Entity.hash previous ≠ Entity.hash next →
    DigestsTellNames (parts previous) (parts next) → gone ∉ (parts next).map Entity.name →
      new ∉ (parts previous).map Entity.name →
        replacement topics previous.name gone new ⊆ ofClass previous next

theorem keepsApart {α : Type} [Entity α] {topics : PartTopics} {parts : Class → List α}
    {inside : α → α → List Change} {previous next : Class} {gone new : String}
    (compared : Entity.hash previous ≠ Entity.hash next →
      ofEntities topics previous.name inside (parts previous) (parts next) ⊆
        ofClass previous next)
    (goneListed : ∃ part ∈ parts previous, Entity.name part = gone)
    (newListed : ∃ part ∈ parts next, Entity.name part = new) (different : gone ≠ new) :
    KeepsApart topics parts previous next gone new where
  unmatched pair member isGone isNew := by
    have sameName := Matching.name_eq_of_mem_modified _ _ _ _ member
    rw [isGone, isNew] at sameName
    exact different sameName
  told changed named unlisted fresh := by
    obtain ⟨first, firstMember, rfl⟩ := goneListed
    obtain ⟨second, secondMember, rfl⟩ := newListed
    intro change member
    apply compared changed
    rw [replacement, List.mem_cons, List.mem_singleton] at member
    rcases member with rfl | rfl
    · exact mem_ofEntities_of_gone named firstMember unlisted
    · exact mem_ofEntities_of_new named secondMember fresh

theorem ofClass_of_changed {previous next : Class}
    (changed : Entity.hash previous ≠ Entity.hash next) :
    ofEntities Topic.classConstructors previous.name ofConstructor previous.constructors
        next.constructors ⊆ ofClass previous next ∧
      ofEntities Topic.classMethods previous.name ofMethod previous.methods next.methods ⊆
        ofClass previous next := by
  rw [ofClass, unlessSame, if_neg changed]
  constructor
  · intro change member
    simp [member]
  · intro change member
    simp [member]

end Comparison

namespace Assembly

open Signature Comparison

/-! ## Identities of declared members -/

namespace MethodHeader

/-- The header is that of a method: its descriptor spells the erasure of the method,
and its signature, if it states one, the method itself.  Without a signature the
method is what its descriptor spells. -/
structure Describes (header : MethodHeader) (bounds : Bounds) (declared : MethodSyntax) :
    Prop where
  descriptor : header.descriptor = declared.descriptor bounds
  spelled : stated? header.signature = some declared.signature ∨
    (stated? header.signature = none ∧ header.descriptor = declared.signature ∧
      IsErased header.descriptor.toList)
  /-- A type parameter is erased to its first bound. -/
  bounds : ∀ parameter ∈ declared.parameters, ∀ bound ∈ parameter.bounds.head?,
    bounds parameter.name.chars = bound.toReference.erased bounds

theorem Describes.arguments_eq {header : MethodHeader} {bounds : Bounds} {declared : MethodSyntax}
    {type : MethodSignature} (describes : header.Describes bounds declared)
    (typed : methodType header.descriptor header.signature = .ok type) :
    type.arguments = String.ofList (commaSeparated (declared.arguments.map JavaType.shown)) := by
  rcases describes.spelled with stated | ⟨unstated, isSignature, erased⟩
  · rw [methodType, stated] at typed
    have decoded := (decodeMethod_signature declared).symm.trans typed
    cases decoded
    rfl
  · rw [methodType, unstated] at typed
    cases known : decodeMethodDescriptor header.descriptor with
    | error malformed =>
      rw [known] at typed
      cases typed
    | ok types =>
      rw [known] at typed
      have decoded := decodeMethod_of_descriptor erased known
      rw [isSignature, decodeMethod_signature] at decoded
      have source := Except.ok.inj decoded
      cases typed
      exact (congrArg MethodSignature.arguments source).symm

theorem arguments_declared (header : MethodHeader) (classAccess : Access)
    (type : MethodSignature) : (header.declared classAccess type).arguments = type.arguments := by
  rw [declared]
  split
  case isTrue => rfl
  case isFalse => rfl

end MethodHeader

/-! ## Members of a class that ends -/

namespace OpenClass

variable {c : OpenClass} {member : Member.Declared}

theorem exists_annotated (isMember : member ∈ c.members) :
    ∃ annotations, { member with annotations := annotations } ∈ c.annotatedMembers := by
  obtain ⟨handle, inside, rfl⟩ := List.getElem_of_mem isMember
  exact ⟨_, List.mem_mapIdx.mpr ⟨handle, inside, rfl⟩⟩

theorem exists_constructor_close (isMember : member ∈ c.members)
    (isConstructor : member.name = Member.constructorName) :
    ∃ constructor ∈ c.close.constructors,
      Entity.name constructor = Member.identity member.name member.arguments := by
  obtain ⟨annotations, annotated⟩ := exists_annotated isMember
  refine ⟨({ member with annotations := annotations } : Member.Declared).toConstructor, ?_, ?_⟩
  · rw [close, List.partition_eq_filter_filter]
    apply (Entity.sorted_perm _).mem_iff.mpr
    apply List.mem_map_of_mem
    exact List.mem_filter.mpr ⟨annotated, decide_eq_true isConstructor⟩
  · rw [isConstructor]
    rfl

theorem exists_method_close (isMember : member ∈ c.members)
    (noConstructor : member.name ≠ Member.constructorName) :
    ∃ method ∈ c.close.methods,
      Entity.name method = Member.identity member.name member.arguments := by
  obtain ⟨annotations, annotated⟩ := exists_annotated isMember
  refine ⟨({ member with annotations := annotations } : Member.Declared).toMethod, ?_, rfl⟩
  rw [close, List.partition_eq_filter_filter]
  apply (Entity.sorted_perm _).mem_iff.mpr
  apply List.mem_map_of_mem
  refine List.mem_filter.mpr ⟨annotated, ?_⟩
  simp [Member.Declared.isConstructor, noConstructor]

end OpenClass

/-! ## Overloads -/

section Overloads

variable {c d firstNext secondNext : OpenClass} {firstHandle secondHandle : Nat}
  {first second : MethodHeader} {bounds otherBounds : Bounds} {declared other : MethodSyntax}

theorem identity_ne_of_parameterList_ne {type otherType : MethodSignature}
    (firstDescribes : first.Describes bounds declared)
    (secondDescribes : second.Describes otherBounds other)
    (firstNamed : ∀ type ∈ declared.arguments, type.element.IsNamed ∧ type.element.IsCompact)
    (secondNamed : ∀ type ∈ other.arguments, type.element.IsNamed ∧ type.element.IsCompact)
    (agree : ∀ pair ∈ declared.arguments.zip other.arguments,
      VariablesAgree bounds otherBounds pair.1 pair.2)
    (different : declared.parameterList bounds ≠ other.parameterList otherBounds)
    (typed : methodType first.descriptor first.signature = .ok type)
    (otherTyped : methodType second.descriptor second.signature = .ok otherType) (name : String) :
    Member.identity name type.arguments ≠ Member.identity name otherType.arguments := by
  intro same
  have sameArguments := Member.arguments_eq_of_identity_eq same
  rw [firstDescribes.arguments_eq typed, secondDescribes.arguments_eq otherTyped] at sameArguments
  exact different (erasures_eq_of_commaSeparated_eq firstNamed secondNamed agree
    (String.ofList_inj.mp sameArguments))

/-- Two members of one name whose descriptors have different parameters have
different identities, and a comparison of a class that has the one with a class
that has the other tells them apart. -/
theorem overloads_kept_apart (sameName : first.name = second.name)
    (firstDescribes : first.Describes bounds declared)
    (secondDescribes : second.Describes otherBounds other)
    (firstNamed : ∀ type ∈ declared.arguments, type.element.IsNamed ∧ type.element.IsCompact)
    (secondNamed : ∀ type ∈ other.arguments, type.element.IsNamed ∧ type.element.IsCompact)
    (agree : ∀ pair ∈ declared.arguments.zip other.arguments,
      VariablesAgree bounds otherBounds pair.1 pair.2)
    (different : declared.parameterList bounds ≠ other.parameterList otherBounds)
    (firstAccepted : c.accept (.method first) = .ok (.member firstHandle, firstNext))
    (secondAccepted : d.accept (.method second) = .ok (.member secondHandle, secondNext)) :
    ∃ one two : Member.Declared,
      firstNext.members = c.members ++ [one] ∧ secondNext.members = d.members ++ [two] ∧
      Member.identity one.name one.arguments ≠ Member.identity two.name two.arguments ∧
      ∀ earlier later : OpenClass, one ∈ earlier.members → two ∈ later.members →
        (first.name = Member.constructorName →
          KeepsApart Topic.classConstructors Class.constructors earlier.close later.close
            (Member.identity one.name one.arguments) (Member.identity two.name two.arguments)) ∧
        (first.name ≠ Member.constructorName →
          KeepsApart Topic.classMethods Class.methods earlier.close later.close
            (Member.identity one.name one.arguments)
            (Member.identity two.name two.arguments)) := by
  rcases OpenClass.accept_method firstAccepted with ⟨_, skipped, _⟩ | ⟨type, typed, _, rfl⟩
  · cases skipped
  rcases OpenClass.accept_method secondAccepted with
    ⟨_, skipped, _⟩ | ⟨otherType, otherTyped, _, rfl⟩
  · cases skipped
  let one := first.declared c.head.access type
  let two := second.declared d.head.access otherType
  have oneName : one.name = first.name := first.name_declared _ _
  have twoName : two.name = first.name := (second.name_declared _ _).trans sameName.symm
  have apart : Member.identity one.name one.arguments ≠ Member.identity two.name two.arguments := by
    rw [oneName, twoName, first.arguments_declared, second.arguments_declared]
    exact identity_ne_of_parameterList_ne firstDescribes secondDescribes firstNamed secondNamed
      agree different typed otherTyped first.name
  refine ⟨one, two, rfl, rfl, apart, fun earlier later oneMember twoMember => ⟨?_, ?_⟩⟩
  · intro isConstructor
    exact keepsApart (fun changed => (ofClass_of_changed changed).1)
      (OpenClass.exists_constructor_close oneMember (oneName.trans isConstructor))
      (OpenClass.exists_constructor_close twoMember (twoName.trans isConstructor)) apart
  · intro noConstructor
    exact keepsApart (fun changed => (ofClass_of_changed changed).2)
      (OpenClass.exists_method_close oneMember (oneName ▸ noConstructor))
      (OpenClass.exists_method_close twoMember (twoName ▸ noConstructor)) apart

end Overloads

/-! ## Methods with a type variable -/

-- The condition is a Boolean, because a search for an instance that decides the field of the
-- structure may also find the one that tries every character.
/-- An identifier that is spelled out. -/
def identifier (text : String) (nonempty : text.toList ≠ [])
    (plain : text.toList.all (· ∉ ['.', ';', '[', '/', '<', '>', ':']) = true) : Identifier where
  chars := text.toList
  nonempty := nonempty
  plain c member := of_decide_eq_true (List.all_eq_true.mp plain c member)

def variableT : Identifier :=
  identifier "T" (by decide) (by decide)

/-- A class or interface of the root package. -/
def javaLang (name : Identifier) : NamedType :=
  let package := [identifier "java" (by decide) (by decide),
    identifier "lang" (by decide) (by decide)]
  .ofClass (.mk package (.mk name []) [])

theorem rootIsBare_javaLang (name : Identifier) : (javaLang name).RootIsBare :=
  fun _ => ⟨rfl, rfl⟩

def boundedByNumber : FormalParameter where
  name := variableT
  classBound := some (javaLang (identifier "Number" (by decide) (by decide)))
  interfaceBounds := []
  bounded := Or.inl rfl
  rootIsBare := List.forall_mem_singleton.mpr (rootIsBare_javaLang _)

def boundedByCharSequence : FormalParameter where
  name := variableT
  classBound := none
  interfaceBounds := [javaLang (identifier "CharSequence" (by decide) (by decide))]
  bounded := Or.inr (List.cons_ne_nil _ _)
  rootIsBare := List.forall_mem_singleton.mpr (rootIsBare_javaLang _)

/-- A method that takes a value of its type variable and others. -/
def ofVariable (parameter : FormalParameter) (others : List JavaType) : MethodSyntax where
  parameters := [parameter]
  arguments := .reference (.variable parameter.name) :: others
  result := none
  exceptions := []

def overload (descriptor signature : String) : MethodHeader where
  name := "f"
  access := Access.accPublic
  descriptor := descriptor
  signature := some signature

def box : OpenClass where
  head := { name := "demo/Box" }

def boxOf (member : Member.Declared) : OpenClass :=
  { box with members := [member] }

theorem describes_ofVariable {descriptor signature : String} {bounds : Bounds}
    {parameter : FormalParameter} {others : List JavaType}
    (isDescriptor : descriptor = (ofVariable parameter others).descriptor bounds)
    (isSignature : stated? (some signature) = some (ofVariable parameter others).signature)
    (erased : ∀ bound ∈ parameter.bounds.head?,
      bounds parameter.name.chars = bound.toReference.erased bounds) :
    (overload descriptor signature).Describes bounds (ofVariable parameter others) where
  descriptor := isDescriptor
  spelled := Or.inl isSignature
  bounds := List.forall_mem_singleton.mpr erased

theorem accept_overload {descriptor signature : String} {declared : MethodSyntax}
    (isSignature : stated? (some signature) = some declared.signature) :
    box.accept (.method (overload descriptor signature)) = .ok (.member 0,
      boxOf ((overload descriptor signature).declared Access.accPublic declared.source)) := by
  have typed : methodType descriptor (some signature) = .ok declared.source := by
    rw [methodType, isSignature]
    exact decodeMethod_signature declared
  exact OpenClass.accept_method_of_typed (by decide : Text.isBlank "f" = false)
    (by decide : OpenClass.skipsMethod "f" = false) typed

theorem isNamed_ofVariable (base : BaseType) :
    ∀ type ∈ (ofVariable boundedByNumber [.base base]).arguments,
      type.element.IsNamed ∧ type.element.IsCompact := by
  have java : variableT.IsJava := ⟨by decide, by decide⟩
  exact List.forall_mem_cons.mpr
    ⟨⟨java, trivial⟩, List.forall_mem_singleton.mpr ⟨trivial, trivial⟩⟩

/-- The bound of the type variable is the same, the second parameters differ. -/
theorem overloads_kept_apart_second :
    let ints := overload "(Ljava/lang/Number;I)V" "<T:Ljava/lang/Number;>(TT;I)V"
    let longs := overload "(Ljava/lang/Number;J)V" "<T:Ljava/lang/Number;>(TT;J)V"
    ∃ one two : Member.Declared,
      box.accept (.method ints) = .ok (.member 0, boxOf one) ∧
      box.accept (.method longs) = .ok (.member 0, boxOf two) ∧
      KeepsApart Topic.classMethods Class.methods (boxOf one).close (boxOf two).close
        "f(T, int)" "f(T, long)" := by
  intro ints longs
  let bounds : Bounds := fun _ => "Ljava/lang/Number;".toList
  let takesInt := ofVariable boundedByNumber [.base .int]
  let takesLong := ofVariable boundedByNumber [.base .long]
  have erased : ∀ bound ∈ boundedByNumber.bounds.head?,
      bounds boundedByNumber.name.chars = bound.toReference.erased bounds := by
    intro bound isBound
    cases isBound
    decide
  have intsStated : stated? ints.signature = some takesInt.signature := by decide
  have longsStated : stated? longs.signature = some takesLong.signature := by decide
  have intsDescribes : ints.Describes bounds takesInt :=
    describes_ofVariable (by decide) intsStated erased
  have longsDescribes : longs.Describes bounds takesLong :=
    describes_ofVariable (by decide) longsStated erased
  have sameName : ints.name = longs.name := rfl
  have agree : ∀ pair ∈ takesInt.arguments.zip takesLong.arguments,
      VariablesAgree bounds bounds pair.1 pair.2 := by
    refine List.forall_mem_cons.mpr ⟨fun _ _ => rfl, List.forall_mem_singleton.mpr ?_⟩
    rintro (isVariable | isVariable)
    · exact absurd isVariable id
    · exact absurd isVariable id
  have different : takesInt.parameterList bounds ≠ takesLong.parameterList bounds := by decide
  let one := ints.declared Access.accPublic takesInt.source
  let two := longs.declared Access.accPublic takesLong.source
  have intsAccepted : box.accept (.method ints) = .ok (.member 0, boxOf one) :=
    accept_overload intsStated
  have longsAccepted : box.accept (.method longs) = .ok (.member 0, boxOf two) :=
    accept_overload longsStated
  obtain ⟨_, _, isOne, isTwo, _, apart⟩ := overloads_kept_apart sameName intsDescribes
    longsDescribes (isNamed_ofVariable .int) (isNamed_ofVariable .long) agree different
    intsAccepted longsAccepted
  cases isOne
  cases isTwo
  have kept := (apart (boxOf one) (boxOf two) (List.mem_singleton_self one)
    (List.mem_singleton_self two)).2 (by decide)
  exact ⟨one, two, intsAccepted, longsAccepted, kept⟩

/-- The bounds of the type variable differ, and with them the descriptors, but not
the identities.  A comparison of the two classes finds nothing. -/
theorem overloads_confused :
    let numbers := overload "(Ljava/lang/Number;)V" "<T:Ljava/lang/Number;>(TT;)V"
    let sequences :=
      overload "(Ljava/lang/CharSequence;)V" "<T::Ljava/lang/CharSequence;>(TT;)V"
    let takesNumber := ofVariable boundedByNumber []
    let takesSequence := ofVariable boundedByCharSequence []
    let number : Bounds := fun _ => "Ljava/lang/Number;".toList
    let sequence : Bounds := fun _ => "Ljava/lang/CharSequence;".toList
    ∃ one two : Member.Declared,
      numbers.Describes number takesNumber ∧ sequences.Describes sequence takesSequence ∧
      (∀ type ∈ takesNumber.arguments ++ takesSequence.arguments,
        type.element.IsNamed ∧ type.element.IsCompact) ∧
      takesNumber.parameterList number ≠ takesSequence.parameterList sequence ∧
      box.accept (.method numbers) = .ok (.member 0, boxOf one) ∧
      box.accept (.method sequences) = .ok (.member 0, boxOf two) ∧
      Member.identity one.name one.arguments = Member.identity two.name two.arguments ∧
      ofClass (boxOf one).close (boxOf two).close = [] := by
  intro numbers sequences takesNumber takesSequence number sequence
  have numbersStated : stated? numbers.signature = some takesNumber.signature := by decide
  have sequencesStated : stated? sequences.signature = some takesSequence.signature := by decide
  refine ⟨numbers.declared Access.accPublic takesNumber.source,
    sequences.declared Access.accPublic takesSequence.source,
    describes_ofVariable (by decide) numbersStated ?_,
    describes_ofVariable (by decide) sequencesStated ?_, ?_, by decide,
    accept_overload numbersStated, accept_overload sequencesStated, by decide, ?_⟩
  · intro bound isBound
    cases isBound
    decide
  · intro bound isBound
    cases isBound
    decide
  · have java : variableT.IsJava := ⟨by decide, by decide⟩
    exact List.forall_mem_cons.mpr ⟨⟨java, trivial⟩, List.forall_mem_singleton.mpr ⟨java, trivial⟩⟩
  · let one := numbers.declared Access.accPublic takesNumber.source
    let two := sequences.declared Access.accPublic takesSequence.source
    have next : (boxOf two).close =
        { (boxOf one).close with
          methods :=
            [{ one.toMethod with genericTypes := "T extends java.lang.CharSequence" }] } := by
      decide +kernel
    change ofClass (boxOf one).close (boxOf two).close = []
    rw [next]
    exact ofClass_genericTypes _ one.toMethod _ (List.mergeSort_singleton _)

end Assembly

end JvmDiff
