import Mathlib.Data.List.Forall2
import JvmDiff.Proofs.Signature.Rendered

/-!
# Decoding signatures

A signature decodes to the source form of the heading it spells: type parameters with the bounds
that say something, a superclass other than the root class, arguments with commas between them,
interfaces and exceptions in order.
-/

namespace JvmDiff.Signature

namespace Rendering

/-! ## Types on their own -/

theorem settled_initial (keepsObject : Bool) : Settled { keepsObject := keepsObject } :=
  ⟨⟨[], rfl⟩, rfl⟩

theorem text_endType_initial (keepsObject : Bool) (shown : List Char) :
    (named { keepsObject := keepsObject } shown).endType.text = shown := by
  simp [endType, named, popFlag, dropDimensions]

/-- A type on its own, where the root class is written out. -/
theorem ofType_of_shows {marks : List Mark} {shown : List Char} (showsText : Shows marks shown) :
    ofType true marks = String.ofList shown := by
  have showsRoot : ShowsRoot { keepsObject := true } := by simp [ShowsRoot]
  rw [ofType, showsText (settled_initial true) showsRoot, text_endType_initial]

theorem ofType_javaType (type : JavaType) :
    ofType true type.marks = String.ofList type.shown :=
  ofType_of_shows (marks_javaType type)

theorem ofType_reference (type : ReferenceType) :
    ofType true type.marks = String.ofList type.shown := by
  have known := ofType_javaType (.reference type)
  rwa [JavaType.marks, JavaType.shown] at known

theorem ofType_classType (type : ClassType) :
    ofType true type.marks = String.ofList type.shown := by
  have known := ofType_reference (.ofClass type)
  rwa [ReferenceType.marks, ReferenceType.shown] at known

theorem marks_of_isRoot {type : ClassType} (isRoot : type.isRoot = true) (isBare : type.IsBare) :
    type.marks = [.className objectName, .classEnd] := by
  obtain ⟨package, ⟨name, arguments⟩, members⟩ := type
  obtain ⟨rfl, rfl⟩ := isBare
  have rootName : pathText package ++ name.chars = "java/lang/Object".toList :=
    of_decide_eq_true isRoot
  rw [ClassType.marks, argumentMarks, memberMarks, rootName]
  rfl

/-- A superclass on its own: nothing is said for the root class. -/
theorem ofType_superclass {type : ClassType} (rootIsBare : type.isRoot → type.IsBare) :
    (if ofType false type.marks = "" then none else some (ofType false type.marks)) =
      if type.isRoot then none else some (String.ofList type.shown) := by
  by_cases isRoot : type.isRoot = true
  · have hidden : ¬ ShowsRoot { keepsObject := false } := by simp [ShowsRoot, popFlag]
    have empty : ofType false type.marks = "" := by
      rw [ofType, marks_of_isRoot isRoot (rootIsBare isRoot), marks_bareRoot hidden]
      rfl
    rw [if_pos isRoot, if_pos empty]
  · rw [if_neg isRoot]
    rw [Bool.not_eq_true] at isRoot
    have shown : ofType false type.marks = String.ofList type.shown := by
      rw [ofType, marks_classType type (settled_initial false).atElement (Or.inl isRoot),
        text_endType_initial]
    have nonempty : String.ofList type.shown ≠ "" := by
      obtain ⟨package, ⟨name, arguments⟩, members⟩ := type
      rw [← String.ofList_nil, Ne, String.ofList_inj, ClassType.shown, Segment.shown]
      simp [name.nonempty]
    rw [shown, if_neg nonempty]

/-! ## Type parameters -/

/-- Between the bounds of type parameters nothing is owed and the root class is
left out. -/
structure BetweenBounds (r : Rendering) : Prop where
  settled : r.Settled
  hidden : ¬ r.ShowsRoot

theorem BetweenBounds.write {r : Rendering} (between : r.BetweenBounds) (text : List Char) :
    (r.write text).BetweenBounds :=
  ⟨⟨between.settled.atElement, between.settled.noSeparator⟩, between.hidden⟩

/-- A type with a name comes after the separator; the root class takes the
separator with it. -/
theorem marks_namedType {type : NamedType} (rootIsBare : type.RootIsBare) {r : Rendering}
    (atElement : r.AtElement) (hidden : ¬ r.ShowsRoot) :
    r.startType.marks type.toReference.marks =
      if type.isRoot then { r with separator := [] } else r.named type.toReference.shown := by
  match type with
  | .variable name =>
    have shown : r.startType.marks (ReferenceType.variable name).marks =
        (r.startType.named name.chars).endType := by
      rw [ReferenceType.marks, marks_cons, marks_nil, mark, String.toList_ofList, named]
    rw [NamedType.toReference, shown, endType_named_startType atElement, NamedType.isRoot,
      if_neg Bool.false_ne_true, ReferenceType.shown]
  | .ofClass type =>
    rw [NamedType.toReference, ReferenceType.marks, ReferenceType.shown, NamedType.isRoot]
    by_cases isRoot : type.isRoot = true
    · obtain ⟨flags, known⟩ := atElement
      rw [if_pos isRoot, marks_of_isRoot isRoot (rootIsBare isRoot),
        marks_bareRoot (r := r.startType) hidden]
      simp [endType, startType, popFlag, known, dropDimensions]
    · rw [if_neg isRoot]
      rw [Bool.not_eq_true] at isRoot
      rw [marks_classType type (r := r.startType) ⟨_, rfl⟩ (Or.inl isRoot),
        endType_named_startType atElement]

/-- One more bound: the first after the name has the keyword before it. -/
theorem interfaceBound_namedType {type : NamedType} (rootIsBare : type.RootIsBare)
    {r : Rendering} (between : r.BetweenBounds) :
    r.interfaceBound type.toReference.marks =
      if type.isRoot then r
      else r.write ((if r.nameEnd < r.text.length then " & " else " extends ").toList ++
        type.toReference.shown) := by
  obtain ⟨⟨atElement, noSeparator⟩, hidden⟩ := between
  rw [interfaceBound, marks_namedType
    (r := { r with separator := (if r.nameEnd < r.text.length then " & " else " extends ").toList })
    rootIsBare atElement hidden]
  split
  · rw [← noSeparator]
  · simp [named, Rendering.write, ← noSeparator]

theorem foldl_interfaceBound_of_started {bounds : List NamedType}
    (rootIsBare : ∀ bound ∈ bounds, bound.RootIsBare) {r : Rendering} (between : r.BetweenBounds)
    (started : r.nameEnd < r.text.length) :
    (bounds.map fun bound => bound.toReference.marks).foldl interfaceBound r =
      r.write ((boundsShown bounds).flatMap fun text => " & ".toList ++ text) := by
  induction bounds generalizing r with
  | nil => simp [boundsShown, Rendering.write]
  | cons bound bounds inductionHypothesis =>
    obtain ⟨firstBare, restBare⟩ := List.forall_mem_cons.mp rootIsBare
    rw [List.map_cons, List.foldl_cons, interfaceBound_namedType firstBare between,
      if_pos started]
    by_cases isRoot : bound.isRoot = true
    · rw [if_pos isRoot, inductionHypothesis restBare between started]
      simp [boundsShown, isRoot]
    · have longer : r.nameEnd <
          (r.write (" & ".toList ++ bound.toReference.shown)).text.length := by
        simp only [Rendering.write, List.length_append]
        omega
      rw [if_neg isRoot, inductionHypothesis restBare (between.write _) longer, write_write]
      simp [boundsShown, isRoot]

theorem foldl_interfaceBound {bounds : List NamedType}
    (rootIsBare : ∀ bound ∈ bounds, bound.RootIsBare) {r : Rendering} (between : r.BetweenBounds)
    (fresh : r.nameEnd = r.text.length) :
    (bounds.map fun bound => bound.toReference.marks).foldl interfaceBound r =
      r.write (extendsShown (boundsShown bounds)) := by
  induction bounds with
  | nil => simp [boundsShown, extendsShown, Rendering.write]
  | cons bound bounds inductionHypothesis =>
    obtain ⟨firstBare, restBare⟩ := List.forall_mem_cons.mp rootIsBare
    rw [List.map_cons, List.foldl_cons, interfaceBound_namedType firstBare between,
      if_neg (Nat.not_lt_of_le (Nat.le_of_eq fresh.symm))]
    -- The root class shows nothing, and the next bound is still the first to be shown.
    by_cases isRoot : bound.isRoot = true
    · rw [if_pos isRoot, inductionHypothesis restBare]
      simp [boundsShown, isRoot]
    · have longer : r.nameEnd <
          (r.write (" extends ".toList ++ bound.toReference.shown)).text.length := by
        simp [Rendering.write, fresh]
      have shown : boundsShown (bound :: bounds) =
          bound.toReference.shown :: boundsShown bounds := by
        simp [boundsShown, isRoot]
      rw [if_neg isRoot, foldl_interfaceBound_of_started restBare (between.write _) longer,
        write_write, shown, extendsShown, if_neg (List.cons_ne_nil _ _), intercalate_cons,
        List.append_assoc]

/-- Right after the name a bound by a class is rendered like one by an
interface. -/
theorem classBound_typeParameterName (r : Rendering) (name : String) (type : List Mark) :
    (r.typeParameterName name).classBound type =
      (r.typeParameterName name).interfaceBound type := by
  have fresh : ¬ (r.typeParameterName name).nameEnd < (r.typeParameterName name).text.length :=
    Nat.lt_irrefl _
  rw [classBound, interfaceBound, if_neg fresh]

theorem typeParameter_scanned (parameter : FormalParameter) {r : Rendering}
    (between : r.BetweenBounds) :
    ∃ nameEnd, r.typeParameter parameter.scanned =
      { r.write ((if r.inTypeParameters then [',', ' '] else ['<']) ++ parameter.shown) with
        nameEnd := nameEnd, inTypeParameters := true } := by
  have named : (r.typeParameterName parameter.scanned.name).BetweenBounds :=
    ⟨⟨between.settled.atElement, between.settled.noSeparator⟩, between.hidden⟩
  have bounded : r.typeParameter parameter.scanned =
      (parameter.bounds.map fun bound => bound.toReference.marks).foldl interfaceBound
        (r.typeParameterName parameter.scanned.name) := by
    rw [typeParameter, FormalParameter.bounds]
    cases known : parameter.classBound with
    | none => simp [FormalParameter.scanned, known]
    | some bound => simp [FormalParameter.scanned, known, classBound_typeParameterName]
  have rootIsBare : ∀ bound ∈ parameter.bounds, bound.RootIsBare := parameter.rootIsBare
  refine ⟨(r.typeParameterName parameter.scanned.name).nameEnd, ?_⟩
  rw [bounded, foldl_interfaceBound rootIsBare named rfl]
  simp [typeParameterName, Rendering.write, FormalParameter.scanned, FormalParameter.shown]

theorem BetweenBounds.typeParameter {r : Rendering} (between : r.BetweenBounds)
    (parameter : FormalParameter) :
    (r.typeParameter parameter.scanned).BetweenBounds ∧
      (r.typeParameter parameter.scanned).inTypeParameters = true := by
  obtain ⟨nameEnd, known⟩ := typeParameter_scanned parameter between
  have noSeparator := between.settled.noSeparator
  rw [known]
  exact ⟨⟨⟨between.settled.atElement, noSeparator⟩, between.hidden⟩, rfl⟩

theorem foldl_typeParameter (parameters : List FormalParameter) {r : Rendering}
    (between : r.BetweenBounds) (started : r.inTypeParameters = true) :
    ∃ nameEnd, (parameters.map FormalParameter.scanned).foldl typeParameter r =
      { r.write ((parameters.map FormalParameter.shown).flatMap fun text => [',', ' '] ++ text) with
        nameEnd := nameEnd } := by
  induction parameters generalizing r with
  | nil => exact ⟨r.nameEnd, by simp [Rendering.write]⟩
  | cons parameter parameters inductionHypothesis =>
    obtain ⟨firstEnd, first⟩ := typeParameter_scanned parameter between
    obtain ⟨betweenNext, startedNext⟩ := between.typeParameter parameter
    obtain ⟨nameEnd, rest⟩ := inductionHypothesis betweenNext startedNext
    refine ⟨nameEnd, ?_⟩
    rw [List.map_cons, List.foldl_cons, rest, first, if_pos started]
    simp [Rendering.write, ← started]

theorem head_formals (parameters : List FormalParameter) (body : Body) :
    ∃ nameEnd, (Declaration.mk (parameters.map FormalParameter.scanned) body).head =
      { keepsObject := false, text := formalsShown parameters, nameEnd := nameEnd,
        typeParameters := formalsShown parameters } := by
  have initial : BetweenBounds { keepsObject := false } :=
    ⟨settled_initial false, by simp [ShowsRoot, popFlag]⟩
  cases parameters with
  | nil => exact ⟨0, rfl⟩
  | cons parameter parameters =>
    obtain ⟨firstEnd, first⟩ := typeParameter_scanned parameter initial
    obtain ⟨betweenNext, startedNext⟩ := initial.typeParameter parameter
    obtain ⟨nameEnd, rest⟩ := foldl_typeParameter parameters betweenNext startedNext
    refine ⟨nameEnd, ?_⟩
    rw [Declaration.head, List.map_cons, List.foldl_cons, rest, first, formalsShown, listShown,
      List.map_cons, if_neg (List.cons_ne_nil _ _), commaSeparated, intercalate_cons]
    simp [endTypeParameters, Rendering.write]

/-! ## Arguments of methods -/

section Arguments

variable {type : List Mark} {shown : List Char} {types : List (List Mark)}
  {texts : List (List Char)} {r : Rendering}

theorem argument_of_shows (typeShows : Shows type shown) (settled : r.Settled) :
    r.argument type =
      { r.write ((if r.inArguments then [',', ' '] else ['(']) ++ shown) with
        inArguments := true } := by
  obtain ⟨separated, known⟩ : ∃ separated : Rendering, separated =
      { r.write (if r.inArguments then [',', ' '] else ['(']) with inArguments := true } :=
    ⟨_, rfl⟩
  have atElement : separated.AtElement := by
    rw [known]
    exact settled.atElement
  have noSeparator : separated.separator = [] := by
    rw [known]
    exact settled.noSeparator
  have showsRoot : separated.startType.ShowsRoot := by
    rw [known]
    simp [ShowsRoot, startType]
  have begun : r.argument type = separated.startType.marks type := by
    rw [known, argument]
    cases r.inArguments <;> rfl
  rw [begun, typeShows (r := separated.startType) ⟨⟨_, rfl⟩, noSeparator⟩ showsRoot,
    endType_named_startType atElement, named_eq_write noSeparator, known]
  simp [Rendering.write]

theorem Settled.argument (settled : r.Settled) (typeShows : Shows type shown) :
    (r.argument type).Settled ∧ (r.argument type).inArguments = true := by
  rw [argument_of_shows typeShows settled]
  exact ⟨⟨settled.atElement, settled.noSeparator⟩, rfl⟩

theorem foldl_argument (typesShow : List.Forall₂ Shows types texts) (settled : r.Settled)
    (started : r.inArguments = true) :
    types.foldl argument r = r.write (texts.flatMap fun text => [',', ' '] ++ text) := by
  induction typesShow generalizing r with
  | nil => simp [Rendering.write]
  | @cons type text types texts typeShows _ inductionHypothesis =>
    obtain ⟨settledNext, startedNext⟩ := settled.argument typeShows
    have first : r.argument type = r.write ([',', ' '] ++ text) := by
      rw [argument_of_shows typeShows settled, if_pos started]
      simp [Rendering.write, ← started]
    rw [List.foldl_cons, inductionHypothesis settledNext startedNext, first, write_write,
      List.flatMap_cons]

/-- Arguments stand one after another with commas between them. -/
theorem arguments_of_shows (typesShow : List.Forall₂ Shows types texts) (settled : r.Settled)
    (fresh : r.inArguments = false) : r.arguments types = commaSeparated texts := by
  rw [arguments]
  cases typesShow with
  | nil => simp [commaSeparated, List.intercalate]
  | @cons type text types texts typeShows typesShow =>
    obtain ⟨settledNext, startedNext⟩ := settled.argument typeShows
    rw [List.foldl_cons, foldl_argument typesShow settledNext startedNext,
      argument_of_shows typeShows settled, commaSeparated, intercalate_cons]
    simp [Rendering.write, fresh]

end Arguments

theorem show_javaTypes (types : List JavaType) :
    List.Forall₂ Shows (types.map JavaType.marks) (types.map JavaType.shown) :=
  List.forall₂_map_left_iff.mpr (List.forall₂_map_right_iff.mpr
    (List.forall₂_same.mpr fun type _ => marks_javaType type))

end Rendering

/-! ## Declarations -/

theorem decodeClass_signature (declared : ClassSyntax) :
    decodeClass declared.signature = .ok declared.source := by
  obtain ⟨nameEnd, head⟩ := Rendering.head_formals declared.parameters declared.declaration.body
  have typeParameters : declared.declaration.head.typeParameters =
      formalsShown declared.parameters := congrArg Rendering.typeParameters head
  have interfaces : (declared.interfaces.map ClassType.marks).map (Rendering.ofType true) =
      declared.interfaces.map fun type => String.ofList type.shown := by
    rw [List.map_map]
    exact List.map_congr_left fun type _ => Rendering.ofType_classType type
  rw [decodeClass, decodeDeclaration, declared.scanDeclaration_signature]
  change Except.ok declared.declaration.toClass = _
  rw [Declaration.toClass, typeParameters, ClassSyntax.source, ClassSyntax.declaration]
  dsimp only
  rw [Rendering.ofType_superclass declared.rootIsBare, interfaces]

theorem decodeMethod_signature (declared : MethodSyntax) :
    decodeMethod declared.signature = .ok declared.source := by
  obtain ⟨nameEnd, head⟩ := Rendering.head_formals declared.parameters declared.declaration.body
  have typeParameters : declared.declaration.head.typeParameters =
      formalsShown declared.parameters := congrArg Rendering.typeParameters head
  have arguments : declared.declaration.head.arguments (declared.arguments.map JavaType.marks) =
      commaSeparated (declared.arguments.map JavaType.shown) := by
    refine Rendering.arguments_of_shows (Rendering.show_javaTypes _) ⟨⟨[], ?_⟩, ?_⟩ ?_
    · exact congrArg Rendering.arrayFlags head
    · exact congrArg Rendering.separator head
    · exact congrArg Rendering.inArguments head
  have result : Rendering.ofType true (declared.result.elim [.primitive 'V'] JavaType.marks) =
      String.ofList (declared.result.elim "void".toList JavaType.shown) := by
    cases declared.result with
    | none => rfl
    | some type => exact Rendering.ofType_javaType type
  have exceptions : (declared.exceptions.map fun type => type.toReference.marks).map
      (Rendering.ofType true) =
        declared.exceptions.map fun type => String.ofList type.toReference.shown := by
    rw [List.map_map]
    exact List.map_congr_left fun type _ => Rendering.ofType_reference type.toReference
  rw [decodeMethod, decodeDeclaration, declared.scanDeclaration_signature]
  change Except.ok declared.declaration.toMethod = _
  rw [Declaration.toMethod, typeParameters, MethodSyntax.source, ← result, ← exceptions,
    ← arguments]
  rfl

theorem decodeField_text (type : JavaType) :
    decodeField (String.ofList type.text) = .ok (String.ofList type.shown) := by
  have scans := type.scans []
  rw [List.append_nil, ← String.toList_ofList (l := type.text)] at scans
  obtain ⟨progress, scanned⟩ := scans
  rw [decodeField, scanned]
  dsimp only
  rw [if_pos rfl, Rendering.ofType_javaType]

/-- Decoding what a class, a method or a type spells succeeds and shows its
source form. -/
theorem decode_signature_eq_source :
    (∀ declared : ClassSyntax, decodeClass declared.signature = .ok declared.source) ∧
      (∀ declared : MethodSyntax, decodeMethod declared.signature = .ok declared.source) ∧
      ∀ type : JavaType, decodeField (String.ofList type.text) = .ok (String.ofList type.shown) :=
  ⟨decodeClass_signature, decodeMethod_signature, decodeField_text⟩

end JvmDiff.Signature
