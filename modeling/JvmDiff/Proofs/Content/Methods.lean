import JvmDiff.Proofs.Content.Values

/-!
# Methods read back

The content of a method says which method it is: its name, its types, its flags, its exceptions and
its annotations with all their values.
-/

namespace JvmDiff

open Text

namespace Member

theorem exceptionsPart_injective {first second : List String}
    (firstFree : ∀ exception ∈ first, ',' ∉ exception.toList)
    (secondFree : ∀ exception ∈ second, ',' ∉ exception.toList)
    (same : exceptionsPart first = exceptionsPart second) : first = second := by
  -- A list of exceptions is the list of what stands between its commas.
  have split : ∀ {exceptions : List String}, exceptions ≠ [] →
      (∀ exception ∈ exceptions, ',' ∉ exception.toList) →
      ([','].intercalate (exceptions.map String.toList)).splitOn ',' =
        exceptions.map String.toList := by
    intro exceptions nonempty free
    apply List.splitOn_intercalate
    · intro text member
      obtain ⟨exception, exceptionMember, rfl⟩ := List.mem_map.mp member
      exact free exception exceptionMember
    · simpa using nonempty
  cases first with
  | nil =>
    cases second with
    | nil => rfl
    | cons => cases same
  | cons exception exceptions =>
    cases second with
    | nil => cases same
    | cons other others =>
      have sameText : [','].intercalate ((exception :: exceptions).map String.toList) =
          [','].intercalate ((other :: others).map String.toList) := by
        have spelled := Option.some.inj same
        simp only [bracketed, String.toList_append, String.toList_intercalate,
          List.append_assoc] at spelled
        exact List.append_cancel_right
          (List.append_cancel_left (List.append_cancel_left spelled))
      have sameSplit := congrArg (List.splitOn ',') sameText
      rw [split (List.cons_ne_nil _ _) firstFree, split (List.cons_ne_nil _ _) secondFree]
        at sameSplit
      exact (List.map_inj_right fun _ _ => String.toList_inj.mp).mp sameSplit

/-- The annotations of a member, where the end of its content follows. -/
theorem annotationsPart_inj {first second : List AnnotationUse}
    (firstReadable : ∀ usage ∈ first, usage.Readable)
    (secondReadable : ∀ usage ∈ second, usage.Readable)
    (same : (contentPart "A" Entity.contentList first).toList ++ ['\x7d'] =
      (contentPart "A" Entity.contentList second).toList ++ ['\x7d']) : first = second := by
  cases first with
  | nil =>
    cases second with
    | nil => rfl
    | cons => simp [contentPart] at same
  | cons usage uses =>
    cases second with
    | nil => simp [contentPart] at same
    | cons other others =>
      simp only [contentPart, String.toList_append, List.append_assoc] at same
      exact (AnnotationUse.contentList_inj firstReadable secondReadable
        (List.append_cancel_left (List.append_cancel_left (List.append_cancel_left same)))).1

end Member

namespace Method

/-- A method that its content tells from all others: the marks that structure a
content are in none of its texts, and its annotations can be read. -/
structure Readable (method : Method) : Prop where
  simpleName : '#' ∉ method.simpleName.toList
  genericTypes : IsPlain method.genericTypes
  returnType : IsPlain method.returnType
  arguments : IsPlain method.arguments
  exceptions : ∀ exception ∈ method.exceptions, IsPlain exception ∧ ',' ∉ exception.toList
  annotations : ∀ usage ∈ method.annotations, usage.Readable

theorem toList_contentHead (method : Method) (rest : List Char) :
    method.contentHead.toList ++ rest =
      "M\x7bN=".toList ++ (method.simpleName.toList ++
        ((contentText "G" method.genericTypes).toList ++ ("#T=".toList ++
          (method.returnType.toList ++ ("#D=".toList ++
            ((toString method.access.raw).toList ++ rest)))))) := by
  simp only [contentHead, String.toList_append, List.append_assoc]

/-- The head of a method and what follows it. -/
theorem Readable.contentHead_inj {first second : Method} (firstReadable : first.Readable)
    (secondReadable : second.Readable) {rest other : List Char} (restMark : AtMark rest)
    (otherMark : AtMark other)
    (same : first.contentHead.toList ++ rest = second.contentHead.toList ++ other) :
    first.simpleName = second.simpleName ∧ first.genericTypes = second.genericTypes ∧
      first.returnType = second.returnType ∧ first.access = second.access ∧ rest = other := by
  rw [toList_contentHead, toList_contentHead] at same
  have noLabel : ∀ {text : String}, '#' ∉ text.toList → ∀ c ∈ text.toList, ¬ '#' = c := by
    rintro text free c member rfl
    exact free member
  have named : ∀ (method : Method) rest, StartsWith (Eq '#')
      ((contentText "G" method.genericTypes).toList ++ ("#T=".toList ++ rest)) := by
    intro method rest
    rw [contentText]
    split
    · exact startsWith_cons rfl _
    · simp only [String.toList_append, List.append_assoc]
      exact startsWith_cons rfl _
  obtain ⟨sameName, fromGenerics⟩ := append_inj_of_unmarked (noLabel firstReadable.simpleName)
    (noLabel secondReadable.simpleName) (named first _) (named second _)
    (List.append_cancel_left same)
  obtain ⟨sameGenerics, fromType⟩ := contentText_inj firstReadable.genericTypes
    secondReadable.genericTypes (atMark_text (by decide) _) (atMark_text (by decide) _) (by simp)
    (by simp) fromGenerics
  obtain ⟨sameType, fromAccess⟩ := append_inj_of_plain firstReadable.returnType
    secondReadable.returnType (atMark_text (by decide) _) (atMark_text (by decide) _)
    (List.append_cancel_left fromType)
  obtain ⟨sameAccess, sameRest⟩ := append_inj_of_plain (isPlain_natural first.access.raw)
    (isPlain_natural second.access.raw) restMark otherMark (List.append_cancel_left fromAccess)
  exact ⟨String.toList_inj.mp sameName, sameGenerics, sameType,
    Access.eq_of_toString_raw_eq sameAccess, sameRest⟩

theorem Readable.parts_eq_of_content_eq {first second : Method} (firstReadable : first.Readable)
    (secondReadable : second.Readable) (same : first.content = second.content) :
    first.simpleName = second.simpleName ∧ first.genericTypes = second.genericTypes ∧
      first.returnType = second.returnType ∧ first.access = second.access ∧
      first.arguments = second.arguments ∧ first.exceptions = second.exceptions ∧
      first.annotations = second.annotations := by
  have spelled := congrArg String.toList same
  have headed : ∀ method : Method, method.content = method.contentHead ++
      Member.contentTail method.annotations method.arguments method.exceptions := fun _ => rfl
  rw [headed, headed, String.toList_append, String.toList_append] at spelled
  have others : ∀ label ∈ ['R', 'E'], 'D' ≠ label := by simp
  obtain ⟨sameFront, sameArguments, sameExceptions⟩ := Member.contentTail_inj
    (fun label member => first.notLast_contentHead (others label member))
    (fun label member => second.notLast_contentHead (others label member))
    firstReadable.arguments secondReadable.arguments
    (fun exception member => (firstReadable.exceptions exception member).1)
    (fun exception member => (secondReadable.exceptions exception member).1) spelled
  have sameClosed := congrArg (· ++ ['\x7d']) sameFront
  simp only [List.append_assoc] at sameClosed
  obtain ⟨sameName, sameGenerics, sameType, sameAccess, sameAnnotations⟩ :=
    firstReadable.contentHead_inj secondReadable
      (atMark_contentPart "A" _ first.annotations (atMark_end []))
      (atMark_contentPart "A" _ second.annotations (atMark_end [])) sameClosed
  exact ⟨sameName, sameGenerics, sameType, sameAccess, sameArguments,
    Member.exceptionsPart_injective
      (fun exception member => (firstReadable.exceptions exception member).2)
      (fun exception member => (secondReadable.exceptions exception member).2) sameExceptions,
    Member.annotationsPart_inj firstReadable.annotations secondReadable.annotations
      sameAnnotations⟩

/-- The identity of a method repeats its name and its arguments. -/
def IsIdentified (method : Method) : Prop :=
  method.identity = Member.identity method.simpleName method.arguments

theorem Readable.eq_of_content_eq {first second : Method} (firstReadable : first.Readable)
    (secondReadable : second.Readable) (firstIdentified : first.IsIdentified)
    (secondIdentified : second.IsIdentified) (same : first.content = second.content) :
    first = second := by
  obtain ⟨sameName, sameGenerics, sameType, sameAccess, sameArguments, sameExceptions,
    sameAnnotations⟩ := firstReadable.parts_eq_of_content_eq secondReadable same
  rw [IsIdentified] at firstIdentified secondIdentified
  cases first
  cases second
  simp_all only

end Method

/-- Declared methods that can be read are told from each other by their
contents. -/
theorem Member.Declared.toMethod_eq_of_content_eq {first second : Member.Declared}
    (firstReadable : first.toMethod.Readable) (secondReadable : second.toMethod.Readable)
    (same : first.toMethod.content = second.toMethod.content) :
    first.toMethod = second.toMethod :=
  firstReadable.eq_of_content_eq secondReadable rfl rfl same

namespace Member.Declared

/-- A method with an annotation whose text looks like the end of a content. -/
def tagged (genericTypes thrown : String) : Declared where
  name := "find"
  genericTypes := genericTypes
  returnType := some "T"
  arguments := "java.lang.Class<T>, int"
  exceptions := [thrown]
  annotations := [
    { name := "demo.Tag"
      elements := [
        ("kinds", .array [.leaf (.enumConstant "demo.Kind" "FAST"), .leaf (.classLiteral "T")]),
        ("value", .leaf (.string "x\"\x7d]#R=int"))]
      ordered := by decide }]

theorem exceptions_tagged (genericTypes thrown : String) :
    (tagged genericTypes thrown).toMethod.exceptions = [dotted thrown] :=
  List.mergeSort_singleton _

theorem annotations_tagged (genericTypes thrown : String) :
    (tagged genericTypes thrown).toMethod.annotations = (tagged "" "").annotations :=
  List.mergeSort_singleton _

theorem readable_tagged (genericTypes thrown : String)
    (plain : Text.IsPlain (tagged genericTypes thrown).toMethod.genericTypes)
    (thrownPlain : Text.IsPlain (dotted thrown) ∧ ',' ∉ (dotted thrown).toList) :
    (tagged genericTypes thrown).toMethod.Readable where
  simpleName := (by decide : '#' ∉ "find".toList)
  genericTypes := plain
  returnType := (by decide : Text.IsPlain "T")
  arguments := (by decide : Text.IsPlain "java.lang.Class<T>, int")
  exceptions := by
    rw [exceptions_tagged]
    exact List.forall_mem_singleton.mpr thrownPlain
  annotations := by
    have constant :
        IsName "demo.Kind" ∧ IsName "FAST" ∧ '.' ∉ "FAST".toList ∧ "FAST" ≠ "class" := by
      decide
    have literal : IsName "T" := by decide
    rw [annotations_tagged]
    refine List.forall_mem_singleton.mpr (.nested (by decide) (by decide) ?_)
    refine List.forall_mem_cons.mpr ⟨.array ?_, List.forall_mem_singleton.mpr (.leaf trivial)⟩
    exact List.forall_mem_cons.mpr ⟨.leaf constant, List.forall_mem_singleton.mpr (.leaf literal)⟩

/-- Type parameters with and without brackets, an exception with slashes and
with dots. -/
theorem toMethod_eq_of_content_eq_tagged :
    (tagged "<T>" "demo/Fault").toMethod.content = (tagged "T" "demo.Fault").toMethod.content ∧
      (tagged "<T>" "demo/Fault").toMethod = (tagged "T" "demo.Fault").toMethod := by
  have same : (tagged "<T>" "demo/Fault").toMethod.content =
      (tagged "T" "demo.Fault").toMethod.content := by
    rw [Method.content, Method.content, exceptions_tagged, exceptions_tagged, annotations_tagged,
      annotations_tagged]
    decide +kernel
  exact ⟨same, toMethod_eq_of_content_eq
    (readable_tagged "<T>" "demo/Fault" (by decide +kernel) (by decide))
    (readable_tagged "T" "demo.Fault" (by decide +kernel) (by decide)) same⟩

end Member.Declared

end JvmDiff
