import JvmDiff.Assembly.Basic
import JvmDiff.Proofs.Signature.Decoding

/-!
# Descriptors read as signatures

A descriptor without dots and opening brackets is a signature as well, and it says the same in
both ways of reading.  A member that states its descriptor once more as a signature is therefore
the same member.
-/

namespace JvmDiff.Signature

/-! ## Types -/

/-- The text is one in which a descriptor and a signature mean the same. -/
def IsErased (text : List Char) : Prop :=
  '<' ∉ text ∧ '.' ∉ text

theorem IsErased.of_append {first second : List Char} (erased : IsErased (first ++ second)) :
    IsErased first ∧ IsErased second := by
  simp only [IsErased, List.mem_append, not_or] at erased
  exact ⟨⟨erased.1.1, erased.2.1⟩, ⟨erased.1.2, erased.2.2⟩⟩

namespace Rendering

/-- A class without arguments is shown by its name. -/
theorem shows_className (name : String) :
    Shows [.className name, .classEnd] (Text.dotted name).toList := by
  intro r _ showsRoot
  rw [marks_cons, marks_cons, marks_nil, mark_className (Or.inr showsRoot)]
  simp [mark, closeArguments, enterName, popFlag]

theorem shows_primitive {letter : Char} {name : String}
    (known : primitiveName? letter = some name) : Shows [.primitive letter] name.toList := by
  intro r settled _
  rw [named_eq_write settled.noSeparator, marks_cons, marks_nil, mark, known, Option.getD_some]

theorem Shows.array {marks : List Mark} {shown : List Char} (showsText : Shows marks shown) :
    Shows (.array :: marks) (shown ++ ['[', ']']) := by
  intro r settled showsRoot
  rw [marks_cons, ← endType_named_array]
  exact showsText ⟨⟨_, rfl⟩, settled.noSeparator⟩ showsRoot

end Rendering

open Rendering

/-- The marks of a class type whose name has nothing but characters of its
own. -/
theorem scansType_className {name : List Char} (unmarked : Unmarked name) (nonempty : name ≠ [])
    (rest : List Char) :
    ScansType ('L' :: (name ++ ';' :: rest)) [.className (String.ofList name), .classEnd] rest := by
  have named : (if false then .ok [] else
      (nameMark false (name ++ ';' :: rest) (';' :: rest)).map ([·])) =
        .ok [.className (String.ofList name)] := by
    rw [nameMark_append false nonempty]
    rfl
  have scans : ScansName false false (name ++ ';' :: rest) (';' :: rest)
      [.className (String.ofList name), .classEnd] rest := ScansName.semicolon rest named
  exact scansType_class (ScansName.pass unmarked scans)

/-- What a descriptor spells, a signature spells too. -/
theorem scansType_of_readType {text : List Char} (erased : IsErased text)
    {read : Descriptor.Read text} (known : Descriptor.readType text = .ok read) :
    ∃ marks front, ScansType text marks read.rest ∧ Shows marks read.type.toList ∧
      text = front ++ read.rest := by
  -- An array type goes on with the next character, so the induction is on the text.
  induction text with
  | nil => cases known
  | cons c rest inductionHypothesis =>
    have restErased : IsErased rest := by
      rw [← List.singleton_append] at erased
      exact erased.of_append.2
    rw [Descriptor.readType] at known
    split at known
    case isTrue isArray =>
      subst isArray
      split at known
      case h_1 => cases known
      case h_2 element elementRead =>
        cases known
        obtain ⟨marks, front, scans, showsText, parted⟩ :=
          inductionHypothesis restErased elementRead
        refine ⟨.array :: marks, '[' :: front, scansType_array scans, ?_, ?_⟩
        · simpa using showsText.array
        · rw [List.cons_append, ← parted]
    case isFalse =>
      split at known
      case isTrue isClass =>
        subst isClass
        split at known
        case h_1 => cases known
        case h_2 name after split =>
          split at known
          case isTrue => cases known
          case isFalse nonempty =>
            cases known
            obtain ⟨rfl, noEnd⟩ := splitAtMark_eq_some split
            have unmarked : Unmarked name := by
              obtain ⟨⟨noOpening, noDot⟩, -⟩ := restErased.of_append
              intro c member
              refine ⟨?_, fun opening => noOpening (opening ▸ member)⟩
              rintro (rfl | rfl)
              · exact noDot member
              · exact noEnd member
            refine ⟨_, 'L' :: (name ++ [';']), scansType_className unmarked nonempty after,
              shows_className _, by simp⟩
      case isFalse =>
        split at known
        case h_1 => cases known
        case h_2 name primitive =>
          cases known
          refine ⟨[.primitive c], [c], ⟨Nat.lt_succ_self _, ?_⟩, shows_primitive primitive, rfl⟩
          rw [scanType]
          simp [primitive]

/-- What a field descriptor says, it says as a signature. -/
theorem decodeField_of_descriptor {descriptor type : String} (erased : IsErased descriptor.toList)
    (known : decodeFieldDescriptor descriptor = .ok type) : decodeField descriptor = .ok type := by
  rw [decodeFieldDescriptor] at known
  split at known
  case h_1 => cases known
  case h_2 read isRead =>
    split at known
    case isFalse => cases known
    case isTrue ended =>
      cases known
      obtain ⟨marks, front, ⟨progress, scanned⟩, showsText, _⟩ :=
        scansType_of_readType erased isRead
      rw [decodeField, scanned]
      dsimp only
      rw [if_pos ended, ofType_of_shows showsText, String.ofList_toList]

/-! ## Methods -/

theorem scanParameters_of_readArguments {text after : List Char} {types : List String}
    (erased : IsErased text) (known : Descriptor.readArguments text = .ok (types, after)) :
    ∃ marks front, scanParameters text = .ok (marks, after) ∧
      List.Forall₂ Shows marks (types.map String.toList) ∧ text = front ++ after := by
  -- Where one type ends, the rest is again part of the descriptor, without dots and brackets.
  fun_induction Descriptor.readArguments text generalizing types after with
  | case1 => cases known
  | case2 rest =>
    cases known
    refine ⟨[], [')'], ?_, .nil, rfl⟩
    rw [scanParameters]
  | case3 c rest notClosing fault unread => cases known
  | case4 c rest notClosing first isRead fault unread inductionHypothesis => cases known
  | case5 c rest notClosing first isRead others end_ othersRead inductionHypothesis =>
    cases known
    obtain ⟨firstMarks, front, ⟨progress, scanned⟩, firstShows, parted⟩ :=
      scansType_of_readType erased isRead
    obtain ⟨marks, between, othersScanned, othersShow, partedRest⟩ :=
      inductionHypothesis (parted ▸ erased).of_append.2 othersRead
    refine ⟨firstMarks :: marks, front ++ between, ?_, .cons firstShows othersShow, ?_⟩
    · rw [scanParameters]
      · simp only [scanned, othersScanned]
      · exact notClosing
    · rw [List.append_assoc, ← partedRest, ← parted]

theorem scanDeclaration_of_readMethod {text : List Char} {types : List String} {result : String}
    (erased : IsErased text) (known : Descriptor.readMethod text = .ok (types, result)) :
    ∃ arguments marks, scanDeclaration text = .ok ⟨[], .ofMethod arguments marks []⟩ ∧
      List.Forall₂ Shows arguments (types.map String.toList) ∧ Shows marks result.toList := by
  rw [Descriptor.readMethod.eq_def] at known
  split at known
  case h_2 => cases known
  case h_1 rest =>
    split at known
    case h_1 => cases known
    case h_2 others after argumentsRead =>
      split at known
      case h_1 => cases known
      case h_2 read isRead =>
        split at known
        case isFalse => cases known
        case isTrue ended =>
          cases known
          have restErased : IsErased rest := by
            rw [← List.singleton_append] at erased
            exact erased.of_append.2
          obtain ⟨arguments, front, argumentsScanned, argumentsShow, parted⟩ :=
            scanParameters_of_readArguments restErased argumentsRead
          obtain ⟨marks, _, ⟨progress, scanned⟩, showsText, _⟩ :=
            scansType_of_readType (parted ▸ restErased).of_append.2 isRead
          refine ⟨arguments, marks, ?_, argumentsShow, showsText⟩
          have body : scanBody ('(' :: rest) = .ok (.ofMethod arguments marks []) := by
            rw [scanBody, argumentsScanned]
            change (do
              let result ← scanType after
              let exceptions ← scanExceptions result.rest
              return Body.ofMethod arguments result.marks exceptions) = _
            rw [scanned]
            change (do
              let exceptions ← scanExceptions read.rest
              return Body.ofMethod arguments marks exceptions) = _
            rw [ended, scanExceptions]
            rfl
          exact scanDeclaration_formals [] body (by simp)

/-- What a method descriptor says, it says as a signature. -/
theorem decodeMethod_of_descriptor {descriptor : String} {types : List String} {result : String}
    (erased : IsErased descriptor.toList)
    (known : decodeMethodDescriptor descriptor = .ok (types, result)) :
    decodeMethod descriptor = .ok ⟨"", ", ".intercalate types, result, []⟩ := by
  rw [decodeMethodDescriptor] at known
  split at known
  case h_1 => cases known
  case h_2 both methodRead =>
    cases known
    obtain ⟨arguments, marks, scanned, argumentsShow, showsText⟩ :=
      scanDeclaration_of_readMethod erased methodRead
    have shown := arguments_of_shows argumentsShow (settled_initial false) rfl
    have spelled : String.ofList (commaSeparated (types.map String.toList)) =
        ", ".intercalate types := by
      rw [commaSeparated, ← String.toList_inj, String.toList_ofList, String.toList_intercalate]
      rfl
    have noExceptions : Text.sorted (([] : List (List Mark)).map (ofType true)) = [] :=
      List.mergeSort_nil
    rw [decodeMethod, decodeDeclaration, scanned, ← spelled, ← shown,
      ← String.ofList_toList (s := result), ← ofType_of_shows showsText, ← noExceptions]
    rfl

theorem methodType_none {descriptor : String} {types : List String} {result : String}
    (known : decodeMethodDescriptor descriptor = .ok (types, result)) :
    methodType descriptor none = .ok ⟨"", ", ".intercalate types, result, []⟩ := by
  rw [methodType, known]
  rfl

/-! ## Members -/

theorem fieldType_restated {descriptor type : String} (erased : IsErased descriptor.toList)
    (known : decodeFieldDescriptor descriptor = .ok type) :
    fieldType descriptor (some descriptor) = fieldType descriptor none := by
  by_cases empty : descriptor = ""
  · subst empty
    rfl
  · have stated : stated? (some descriptor) = some descriptor := by simp [stated?, empty]
    have unstated : fieldType descriptor none = decodeFieldDescriptor descriptor := rfl
    rw [unstated, known, fieldType, stated]
    exact decodeField_of_descriptor erased known

theorem methodType_restated {descriptor : String} {types : List String} {result : String}
    (erased : IsErased descriptor.toList)
    (known : decodeMethodDescriptor descriptor = .ok (types, result)) :
    methodType descriptor (some descriptor) = methodType descriptor none := by
  by_cases empty : descriptor = ""
  · subst empty
    rfl
  · have stated : stated? (some descriptor) = some descriptor := by simp [stated?, empty]
    rw [methodType_none known, methodType, stated]
    exact decodeMethod_of_descriptor erased known

end JvmDiff.Signature

namespace JvmDiff.Assembly

open Signature

/-- A field that states its descriptor once more as a signature is the same
field. -/
theorem step_field_restated (assembly : Assembly) {header : FieldHeader} {type : String}
    (erased : IsErased header.descriptor.toList)
    (known : decodeFieldDescriptor header.descriptor = .ok type) :
    assembly.step (.within (.field { header with signature := some header.descriptor })) =
      assembly.step (.within (.field { header with signature := none })) := by
  have same := fieldType_restated erased known
  simp only [step, OpenClass.accept, OpenClass.declareField, same]
  rfl

theorem step_method_restated (assembly : Assembly) {header : MethodHeader} {types : List String}
    {result : String} (erased : IsErased header.descriptor.toList)
    (known : decodeMethodDescriptor header.descriptor = .ok (types, result)) :
    assembly.step (.within (.method { header with signature := some header.descriptor })) =
      assembly.step (.within (.method { header with signature := none })) := by
  have same := methodType_restated erased known
  simp only [step, OpenClass.accept, OpenClass.declareMethod, same]
  rfl

/-- A descriptor without dots and opening brackets says the same as a
signature, so that stating it once more changes no member. -/
theorem descriptor_restated (descriptor : String)
    (erased : '<' ∉ descriptor.toList ∧ '.' ∉ descriptor.toList) :
    (∀ type, decodeFieldDescriptor descriptor = .ok type →
      decodeField descriptor = .ok type ∧
        ∀ (assembly : Assembly) (header : FieldHeader), header.descriptor = descriptor →
          assembly.step (.within (.field { header with signature := some descriptor })) =
            assembly.step (.within (.field { header with signature := none }))) ∧
      ∀ types result, decodeMethodDescriptor descriptor = .ok (types, result) →
        methodType descriptor (some descriptor) =
            .ok ⟨"", ", ".intercalate types, result, []⟩ ∧
          methodType descriptor none = .ok ⟨"", ", ".intercalate types, result, []⟩ ∧
          ∀ (assembly : Assembly) (header : MethodHeader), header.descriptor = descriptor →
            assembly.step (.within (.method { header with signature := some descriptor })) =
              assembly.step (.within (.method { header with signature := none })) := by
  constructor
  · intro type known
    refine ⟨decodeField_of_descriptor erased known, ?_⟩
    rintro assembly header rfl
    exact step_field_restated assembly erased known
  · intro types result known
    refine ⟨(methodType_restated erased known).trans (methodType_none known),
      methodType_none known, ?_⟩
    rintro assembly header rfl
    exact step_method_restated assembly erased known

/-- The descriptor of an array of objects, and that of a method from an object
and an array of numbers to an object. -/
theorem descriptor_restated_object :
    decodeField "[Ljava/lang/Object;" = .ok "java.lang.Object[]" ∧
      methodType "(Ljava/lang/Object;[[I)Ljava/lang/Object;"
          (some "(Ljava/lang/Object;[[I)Ljava/lang/Object;") =
        .ok ⟨"", "java.lang.Object, int[][]", "java.lang.Object", []⟩ := by
  have field : decodeFieldDescriptor "[Ljava/lang/Object;" = .ok "java.lang.Object[]" := by
    decide +kernel
  have method : decodeMethodDescriptor "(Ljava/lang/Object;[[I)Ljava/lang/Object;" =
      .ok (["java.lang.Object", "int[][]"], "java.lang.Object") := by
    decide +kernel
  exact ⟨((descriptor_restated "[Ljava/lang/Object;" (by decide)).1 _ field).1,
    ((descriptor_restated "(Ljava/lang/Object;[[I)Ljava/lang/Object;" (by decide)).2 _ _ method).1⟩

end JvmDiff.Assembly
