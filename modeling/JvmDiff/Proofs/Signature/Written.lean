import JvmDiff.Proofs.Signature.Places
import JvmDiff.Proofs.Signature.Rendered

/-!
# Cutting the arguments out of what is written

The text of a rendering only grows.  So what has been written for a method is its type parameters
and, behind them, its arguments in parentheses, whatever texts the marks hold; and the arguments are
found again by leaving out as many bytes as the type parameters have and the parentheses.
-/

namespace JvmDiff.Signature

open Walk

namespace Rendering

/-- What a rendering becomes by taking in marks: the text grows, and it stays in the same part of
the declaration. -/
structure Extends (before after : Rendering) : Prop where
  text : before.text <+: after.text
  inTypeParameters : after.inTypeParameters = before.inTypeParameters
  inArguments : after.inArguments = before.inArguments

theorem Extends.refl (r : Rendering) : Extends r r :=
  ⟨List.prefix_refl _, rfl, rfl⟩

theorem Extends.trans {first second third : Rendering} (begun : Extends first second)
    (goesOn : Extends second third) : Extends first third where
  text := begun.text.trans goesOn.text
  inTypeParameters := goesOn.inTypeParameters.trans begun.inTypeParameters
  inArguments := goesOn.inArguments.trans begun.inArguments

variable (r : Rendering)

theorem extends_write (text : List Char) : Extends r (r.write text) :=
  ⟨List.prefix_append _ _, rfl, rfl⟩

theorem extends_endType : Extends r r.endType :=
  ⟨List.prefix_append _ _, rfl, rfl⟩

theorem extends_closeArguments : Extends r r.closeArguments :=
  ⟨List.prefix_append _ _, rfl, rfl⟩

theorem extends_writeName (name : String) : Extends r (r.writeName name) :=
  ⟨(List.prefix_append _ _).trans (List.prefix_append _ _), rfl, rfl⟩

theorem extends_openArgument : Extends r r.openArgument := by
  rw [openArgument]
  split
  · exact extends_write r _
  · exact ⟨List.prefix_append _ _, rfl, rfl⟩

theorem extends_mark (mark : Mark) : Extends r (r.mark mark) := by
  cases mark with
  | primitive letter => exact (extends_write r _).trans (extends_endType _)
  | «variable» name =>
    let named : Rendering :=
      { r with text := r.text ++ r.separator ++ name.toList, separator := [] }
    have grown : Extends r named :=
      ⟨(List.prefix_append _ _).trans (List.prefix_append _ _), rfl, rfl⟩
    exact grown.trans (extends_endType named)
  | array => exact ⟨List.prefix_refl _, rfl, rfl⟩
  | className name =>
    rw [Rendering.mark]
    split
    · have grown := extends_writeName r name
      exact ⟨grown.text, grown.inTypeParameters, grown.inArguments⟩
    · exact ⟨List.prefix_refl _, rfl, rfl⟩
  | memberName name =>
    have grown := ((extends_closeArguments r).trans (extends_write _ ['.'])).trans
      (extends_writeName _ name)
    exact ⟨grown.text, grown.inTypeParameters, grown.inArguments⟩
  | anyArgument => exact (extends_openArgument r).trans (extends_write _ _)
  | argument bound =>
    have grown := (extends_openArgument r).trans (extends_write _ (boundText bound))
    exact ⟨grown.text, grown.inTypeParameters, grown.inArguments⟩
  | classEnd => exact (extends_closeArguments r).trans (extends_endType _)

theorem extends_marks (marks : List Mark) : Extends r (r.marks marks) := by
  induction marks generalizing r with
  | nil => exact .refl r
  | cons mark marks inductionHypothesis => exact (extends_mark r mark).trans (inductionHypothesis _)

/-! ## Type parameters -/

theorem extends_bound (separator : List Char) (type : List Mark) :
    Extends r ({ r with separator := separator }.startType.marks type) := by
  have grown := extends_marks ({ r with separator := separator }.startType) type
  exact ⟨grown.text, grown.inTypeParameters, grown.inArguments⟩

theorem extends_interfaceBounds (types : List (List Mark)) :
    Extends r (types.foldl interfaceBound r) := by
  induction types generalizing r with
  | nil => exact .refl r
  | cons type types inductionHypothesis =>
    exact (extends_bound r _ type).trans (inductionHypothesis (r.interfaceBound type))

/-- From its name on a type parameter only adds to the text. -/
theorem extends_typeParameter (parameter : TypeParameter) :
    Extends (r.typeParameterName parameter.name) (r.typeParameter parameter) := by
  rw [typeParameter]
  refine Extends.trans ?_ (extends_interfaceBounds _ _)
  cases parameter.classBound with
  | none => exact .refl _
  | some type => exact extends_bound _ _ type

theorem flags_foldl_typeParameter (parameters : List TypeParameter) :
    (parameters.foldl typeParameter r).inArguments = r.inArguments ∧
      (parameters ≠ [] → (parameters.foldl typeParameter r).inTypeParameters = true) := by
  induction parameters generalizing r with
  | nil => exact ⟨rfl, fun nonempty => absurd rfl nonempty⟩
  | cons parameter parameters inductionHypothesis =>
    have first := extends_typeParameter r parameter
    have rest := inductionHypothesis (r.typeParameter parameter)
    refine ⟨rest.1.trans first.inArguments, fun _ => ?_⟩
    cases parameters with
    | nil => exact first.inTypeParameters
    | cons next others => exact rest.2 (List.cons_ne_nil next others)

/-! ## Arguments -/

/-- An argument begins the list, or is separated from those before it. -/
theorem extends_argument (type : List Mark) :
    r.text ++ (if r.inArguments then [',', ' '] else ['(']) <+: (r.argument type).text ∧
      (r.argument type).inArguments = true := by
  rw [argument]
  split
  · have grown := extends_marks ({ r.write [',', ' '] with inArguments := true }.startType) type
    exact ⟨grown.text, grown.inArguments⟩
  · have grown := extends_marks ({ r.write ['('] with inArguments := true }.startType) type
    exact ⟨grown.text, grown.inArguments⟩

theorem text_prefix_foldl_argument (types : List (List Mark)) :
    r.text <+: (types.foldl argument r).text := by
  induction types generalizing r with
  | nil => exact List.prefix_refl _
  | cons type types inductionHypothesis =>
    exact ((List.prefix_append _ _).trans (extends_argument r type).1).trans (inductionHypothesis _)

/-- Arguments, if there are any, are behind an opening parenthesis. -/
theorem text_foldl_argument (fresh : r.inArguments = false) {types : List (List Mark)}
    (nonempty : types ≠ []) :
    (types.foldl argument r).text = r.text ++ '(' :: r.arguments types := by
  cases types with
  | nil => exact absurd rfl nonempty
  | cons type types =>
    have first := (extends_argument r type).1
    rw [fresh, if_neg Bool.false_ne_true] at first
    obtain ⟨piece, whole⟩ := first.trans (text_prefix_foldl_argument (r.argument type) types)
    rw [arguments, List.foldl_cons, ← whole, List.append_assoc, List.drop_left]
    rfl

end Rendering

/-! ## Declarations -/

/-- Nothing but the type parameters comes before the other types. -/
theorem Declaration.head_text (declared : Declaration) :
    declared.head.text = declared.head.typeParameters := by
  rw [Declaration.head, Rendering.endTypeParameters]
  split
  · rfl
  case isFalse closed =>
    have none : declared.typeParameters = [] := by
      by_contra nonempty
      exact closed ((Rendering.flags_foldl_typeParameter _ _).2 nonempty)
    rw [none]
    rfl

theorem Declaration.head_inArguments (declared : Declaration) :
    declared.head.inArguments = false := by
  have fresh :=
    (Rendering.flags_foldl_typeParameter { keepsObject := false } declared.typeParameters).1
  rw [Declaration.head, Rendering.endTypeParameters]
  split <;> exact fresh

theorem toList_written_ofMethod {declared : Declaration} {arguments exceptions : List (List Mark)}
    {result : List Mark} (isMethod : declared.body = .ofMethod arguments result exceptions) :
    (written declared).toList =
      declared.head.text ++ '(' :: (declared.head.arguments arguments ++ [')']) := by
  rw [written, isMethod]
  dsimp only
  rw [String.toList_ofList]
  by_cases none : arguments = []
  · subst none
    rw [if_pos rfl, Rendering.arguments, List.foldl_nil, List.drop_length]
    rfl
  · rw [if_neg none, Rendering.text_foldl_argument _ declared.head_inArguments none,
      List.append_assoc]
    rfl

/-- What is behind as many bytes as a text has that is written first. -/
theorem slice_behind {whole : String} {first rest : List Char}
    (split : whole.toList = first ++ rest) :
    slice whole (bytesOf (String.ofList first)).length (bytesOf whole).length =
      pure (String.ofList rest) := by
  let place : Place whole (rest ++ []) := ⟨first, by rw [split, List.append_nil]⟩
  have start : (bytesOf (String.ofList first)).length = place.offset := by
    rw [length_bytesOf, String.toList_ofList]
    rfl
  have stop : (bytesOf whole).length = place.offset + byteLength rest := by
    rw [← place.offset_add, byteLength_append]
    rfl
  rw [start, stop, place.slice_eq]

theorem writtenArguments_written (declared : Declaration) :
    writtenArguments (String.ofList declared.head.typeParameters) (written declared) =
      pure declared.toMethod.arguments := by
  rw [writtenArguments, Declaration.toMethod, ← declared.head_text]
  cases shape : declared.body with
  | ofClass superclass interfaces =>
    have split : (written declared).toList = declared.head.text ++ [] := by
      rw [written, shape, String.toList_ofList, List.append_nil]
    rw [slice_behind split, pure_bind]
    rfl
  | ofMethod arguments result exceptions =>
    rw [slice_behind (toList_written_ofMethod shape), pure_bind, String.toList_ofList]
    refine (if_pos List.getLast?_concat).trans ?_
    rw [List.dropLast_concat]

end JvmDiff.Signature
