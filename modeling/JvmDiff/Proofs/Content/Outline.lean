import JvmDiff.Proofs.Content.Delimiters
import JvmDiff.Proofs.Text.Quoted

/-!
# The outline of an element value

A content gives away how a value is put together and the content of each of its leaves, where names
hold nothing that structures a content.  What a leaf is beyond its content it does not say: of a
number it shows the digits and not the type.
-/

namespace JvmDiff

open Text

namespace ElementLeaf

/-- The content stands between quotes. -/
def IsQuoted : ElementLeaf → Prop
  | .string _ => True
  | .char _ => True
  | _ => False

/-- The content stands between quotes, or it is a bare text that does not begin
like an array. -/
def IsSpelled (leaf : ElementLeaf) : Prop :=
  leaf.IsQuoted ∨
    Bare leaf.content.toList ∧ StartsWith (fun c => ¬ IsDelimiter c) leaf.content.toList

theorem isSpelled_of_isName {leaf : ElementLeaf} (isName : IsName leaf.content)
    (nonempty : leaf.content.toList ≠ []) : leaf.IsSpelled := by
  obtain ⟨c, tail, begins⟩ := List.exists_cons_of_ne_nil nonempty
  refine Or.inr ⟨isName.bare, c, tail, begins, isName c ?_⟩
  rw [begins]
  exact List.mem_cons_self

end ElementLeaf

namespace ElementValue

/-! ## Outlines -/

/-- A value with something else at its leaves. -/
inductive Outline (γ : Type) where
  | leaf (shown : γ)
  | array (items : List (Outline γ))
  | nested (name : String) (elements : List (String × Outline γ))

section Outlines

variable {γ : Type} (shown : ElementLeaf → γ)

mutual

/-- The value with what is shown of each leaf. -/
def outline : ElementValue → Outline γ
  | .leaf value => .leaf (shown value)
  | .array items => .array (itemOutlines items)
  | .nested name elements => .nested name (elementOutlines elements)

/-- The outlines of the items of an array. -/
def itemOutlines : List ElementValue → List (Outline γ)
  | [] => []
  | item :: items => item.outline :: itemOutlines items

/-- The outlines of the elements of an annotation, each with its key. -/
def elementOutlines : List (String × ElementValue) → List (String × Outline γ)
  | [] => []
  | (key, value) :: elements => (key, value.outline) :: elementOutlines elements

end

theorem itemOutlines_eq_map (items : List ElementValue) :
    itemOutlines shown items = items.map (outline shown) := by
  induction items with
  | nil => rfl
  | cons item items inductionHypothesis => rw [itemOutlines, inductionHypothesis, List.map_cons]

theorem elementOutlines_eq_map (elements : List (String × ElementValue)) :
    elementOutlines shown elements =
      elements.map fun element => (element.1, element.2.outline shown) := by
  induction elements with
  | nil => rfl
  | cons element elements inductionHypothesis =>
    rw [elementOutlines, inductionHypothesis, List.map_cons]

end Outlines

/-- A value whose keys and annotation names hold nothing that structures a
content, and whose leaves are legible. -/
inductive Legible (legible : ElementLeaf → Prop) : ElementValue → Prop
  | leaf {value : ElementLeaf} (readable : legible value) : Legible legible (.leaf value)
  | array {items : List ElementValue} (each : ∀ item ∈ items, Legible legible item) :
      Legible legible (.array items)
  | nested {name : String} {elements : List (String × ElementValue)} (plain : IsPlain name)
      (keys : ∀ element ∈ elements, IsName element.1)
      (each : ∀ element ∈ elements, Legible legible element.2) :
      Legible legible (.nested name elements)

theorem Legible.mono {weak strong : ElementLeaf → Prop} (weaker : ∀ leaf, strong leaf → weak leaf)
    {value : ElementValue} (legible : value.Legible strong) : value.Legible weak := by
  induction legible with
  | leaf readable => exact .leaf (weaker _ readable)
  | array _ inductionHypothesis => exact .array inductionHypothesis
  | nested plain keys _ inductionHypothesis => exact .nested plain keys inductionHypothesis

/-- Lists that agree in one image agree in every other that it determines. -/
theorem map_eq_map_of_determined {α β γ : Type} {shown : α → β} {told : α → γ}
    {first second : List α}
    (determined : ∀ one ∈ first, ∀ other ∈ second, shown one = shown other →
      told one = told other)
    (same : first.map shown = second.map shown) : first.map told = second.map told := by
  induction first generalizing second with
  | nil =>
    rw [List.map_nil, eq_comm, List.map_eq_nil_iff] at same
    rw [same]
  | cons one first inductionHypothesis =>
    cases second with
    | nil => cases same
    | cons other second =>
      injection same with sameHead sameTail
      have tails := inductionHypothesis
        (fun one member other otherMember => determined one (List.mem_cons_of_mem _ member) other
          (List.mem_cons_of_mem _ otherMember)) sameTail
      rw [List.map_cons, List.map_cons, tails,
        determined one List.mem_cons_self other List.mem_cons_self sameHead]

/-- Where what is shown of a leaf determines what is told of it, so it is with
outlines. -/
theorem Legible.outline_eq {γ δ : Type} {shown : ElementLeaf → γ} {told : ElementLeaf → δ}
    {legible : ElementLeaf → Prop}
    (determined : ∀ first second, legible first → legible second → shown first = shown second →
      told first = told second)
    {first second : ElementValue} (firstLegible : first.Legible legible)
    (secondLegible : second.Legible legible) (same : first.outline shown = second.outline shown) :
    first.outline told = second.outline told := by
  -- An equal outline comes from the same constructor, and its parts are equal one by one.
  induction firstLegible generalizing second with
  | leaf readable =>
    cases secondLegible with
    | leaf otherReadable =>
      injection same with sameShown
      exact congrArg Outline.leaf (determined _ _ readable otherReadable sameShown)
    | array | nested => cases same
  | array each inductionHypothesis =>
    cases secondLegible with
    | array otherEach =>
      injection same with sameItems
      rw [itemOutlines_eq_map, itemOutlines_eq_map] at sameItems
      rw [outline, outline, itemOutlines_eq_map, itemOutlines_eq_map]
      exact congrArg Outline.array (map_eq_map_of_determined
        (fun item member other otherMember =>
          inductionHypothesis item member (otherEach other otherMember)) sameItems)
    | leaf | nested => cases same
  | nested plain keys each inductionHypothesis =>
    cases secondLegible with
    | nested otherPlain otherKeys otherEach =>
      injection same with sameName sameElements
      rw [elementOutlines_eq_map, elementOutlines_eq_map] at sameElements
      rw [outline, outline, elementOutlines_eq_map, elementOutlines_eq_map, sameName]
      refine congrArg (Outline.nested _) (map_eq_map_of_determined ?_ sameElements)
      intro element member other otherMember sameElement
      obtain ⟨sameKey, sameValue⟩ := Prod.mk.inj sameElement
      rw [sameKey,
        inductionHypothesis element member (otherEach other otherMember) sameValue]
    | leaf | array => cases same

mutual

/-- An outline with the leaves themselves tells all values apart. -/
theorem outline_id_inj : ∀ first second : ElementValue,
    outline id first = outline id second ↔ first = second
  | .leaf _, .leaf _ => by simp [outline]
  | .array first, .array second => by simp [outline, itemOutlines_id_inj first second]
  | .nested _ first, .nested _ second => by simp [outline, elementOutlines_id_inj first second]
  | .leaf _, .array _ => by simp [outline]
  | .leaf _, .nested _ _ => by simp [outline]
  | .array _, .leaf _ => by simp [outline]
  | .array _, .nested _ _ => by simp [outline]
  | .nested _ _, .leaf _ => by simp [outline]
  | .nested _ _, .array _ => by simp [outline]

theorem itemOutlines_id_inj : ∀ first second : List ElementValue,
    itemOutlines id first = itemOutlines id second ↔ first = second
  | [], [] => by simp
  | [], _ :: _ => by simp [itemOutlines]
  | _ :: _, [] => by simp [itemOutlines]
  | first :: firsts, second :: seconds => by
      simp [itemOutlines, outline_id_inj first second, itemOutlines_id_inj firsts seconds]

theorem elementOutlines_id_inj : ∀ first second : List (String × ElementValue),
    elementOutlines id first = elementOutlines id second ↔ first = second
  | [], [] => by simp
  | [], _ :: _ => by simp [elementOutlines]
  | _ :: _, [] => by simp [elementOutlines]
  | (_, first) :: firsts, (_, second) :: seconds => by
      simp [elementOutlines, outline_id_inj first second, elementOutlines_id_inj firsts seconds]

end

/-! ## Contents as lists -/

theorem itemContents_eq_map (items : List ElementValue) :
    itemContents items = items.map content := by
  induction items with
  | nil => rfl
  | cons item items inductionHypothesis => rw [itemContents, inductionHypothesis, List.map_cons]

theorem elementContents_eq_map (elements : List (String × ElementValue)) :
    elementContents elements = elements.map fun element =>
      element.1 ++ "=" ++ element.2.content := by
  induction elements with
  | nil => rfl
  | cons element elements inductionHypothesis =>
    rw [elementContents, inductionHypothesis, List.map_cons]

/-- An element of an annotation as its content holds it. -/
def elementChars (element : String × ElementValue) : List Char :=
  element.1.toList ++ '=' :: element.2.content.toList

theorem toList_content_array (items : List ElementValue) (rest : List Char) :
    (content (.array items)).toList ++ rest =
      '[' :: ([',', ' '].intercalate (items.map fun item => item.content.toList) ++
        ']' :: rest) := by
  rw [content, enclosed, itemContents_eq_map]
  simp [String.toList_intercalate, Function.comp_def]

/-- What follows the name in the content of an annotation. -/
def afterName (elements : List (String × ElementValue)) (rest : List Char) : List Char :=
  if elements = [] then '\x7d' :: rest
  else
    "#V=\x7b".toList ++ ([',', ' '].intercalate (elements.map elementChars) ++
      '\x7d' :: '\x7d' :: rest)

theorem toList_content_nested (name : String) (elements : List (String × ElementValue))
    (rest : List Char) :
    (content (.nested name elements)).toList ++ rest =
      "A\x7bN=".toList ++ (name.toList ++ afterName elements rest) := by
  rw [content, afterName]
  by_cases empty : elements = []
  · simp [empty]
  · have spelled : elementChars = fun element : String × ElementValue =>
        element.1.toList ++ '=' :: element.2.content.toList := rfl
    rw [if_neg empty, List.isEmpty_eq_false_iff.mpr empty, enclosed, elementContents_eq_map]
    simp [String.toList_intercalate, Function.comp_def, spelled]

theorem atMark_afterName (elements : List (String × ElementValue)) (rest : List Char) :
    AtMark (afterName elements rest) := by
  rw [afterName]
  split
  · exact atMark_end rest
  · exact atMark_label _

/-! ## How contents begin -/

/-- The delimiter that the content begins with, if it begins with one. -/
def mark : ElementValue → Option Char
  | .leaf (.string _) => some '"'
  | .leaf (.char _) => some '\''
  | .leaf _ => none
  | .array _ => some '['
  | .nested _ _ => none

/-- A value whose outline can be read: its leaves are spelled like leaves. -/
abbrev Spelled : ElementValue → Prop :=
  Legible ElementLeaf.IsSpelled

theorem mark_eq_none_iff {leaf : ElementLeaf} : mark (.leaf leaf) = none ↔ ¬ leaf.IsQuoted := by
  cases leaf <;> simp [mark, ElementLeaf.IsQuoted]

/-- The mark is the first character, where that is a delimiter; it never is one
that may follow a value. -/
theorem Spelled.content_begins {value : ElementValue} (spelled : value.Spelled) :
    ∃ c tail, value.content.toList = c :: tail ∧ ¬ IsCloser c ∧
      value.mark = if IsDelimiter c then some c else none := by
  cases spelled with
  | @leaf leaf isSpelled =>
    by_cases quoted : leaf.IsQuoted
    · cases leaf with
      | string text => exact ⟨'"', _, String.toList_ofList, by decide, rfl⟩
      | char character => exact ⟨'\'', _, String.toList_ofList, by decide, rfl⟩
      | _ => exact absurd quoted id
    · obtain ⟨_, c, tail, begins, noDelimiter⟩ := isSpelled.resolve_left quoted
      refine ⟨c, tail, begins, fun isCloser => noDelimiter isCloser.isDelimiter, ?_⟩
      rw [if_neg noDelimiter, mark_eq_none_iff.mpr quoted]
  | @array items _ =>
    have begins := toList_content_array items []
    rw [List.append_nil] at begins
    exact ⟨'[', _, begins, by decide, rfl⟩
  | @nested name elements _ _ _ =>
    have begins := toList_content_nested name elements []
    rw [List.append_nil] at begins
    exact ⟨'A', _, begins, by decide, rfl⟩

/-- No value begins with what may follow one. -/
theorem Spelled.not_closes {value : ElementValue} (spelled : value.Spelled)
    (after : List Char) : ¬ Closes (value.content.toList ++ after) := by
  obtain ⟨c, tail, begins, notCloser, _⟩ := spelled.content_begins
  rintro ⟨closer, rest, same, isCloser⟩
  rw [begins] at same
  exact notCloser ((List.cons.inj same).1 ▸ isCloser)

theorem Spelled.mark_eq {first second : ElementValue} (firstSpelled : first.Spelled)
    (secondSpelled : second.Spelled) {rest other : List Char}
    (same : first.content.toList ++ rest = second.content.toList ++ other) :
    first.mark = second.mark := by
  obtain ⟨c, tail, begins, _, isMark⟩ := firstSpelled.content_begins
  obtain ⟨d, otherTail, otherBegins, _, isOtherMark⟩ := secondSpelled.content_begins
  rw [begins, otherBegins] at same
  rw [isMark, isOtherMark, (List.cons.inj same).1]

/-! ## Reading outlines -/

/-- The outline of the value is told from that of any other, whatever follows
it. -/
def ShowsOutline (value : ElementValue) : Prop :=
  ∀ {second : ElementValue}, second.Spelled → ∀ {rest other : List Char}, Closes rest →
    Closes other → value.content.toList ++ rest = second.content.toList ++ other →
      value.outline ElementLeaf.content = second.outline ElementLeaf.content ∧ rest = other

/-- A quoted leaf is told from any other. -/
theorem leaf_inj_of_quoted {first second : ElementLeaf} (quoted : first.IsQuoted)
    (secondSpelled : second.IsSpelled) {rest other : List Char}
    (same : first.content.toList ++ rest = second.content.toList ++ other) :
    first = second ∧ rest = other := by
  have marks : mark (.leaf first) = mark (.leaf second) :=
    Spelled.mark_eq (.leaf (Or.inl quoted)) (.leaf secondSpelled) same
  cases first with
  | string text =>
    cases second with
    | string otherText =>
      obtain ⟨rfl, sameRest⟩ := quoted_inj same
      exact ⟨rfl, sameRest⟩
    | _ => cases marks
  | char character =>
    cases second with
    | char otherCharacter =>
      obtain ⟨rfl, sameRest⟩ := quotedChar_inj same
      exact ⟨rfl, sameRest⟩
    | _ => cases marks
  | _ => exact absurd quoted id

theorem leaf_content_inj {first second : ElementLeaf} (firstSpelled : first.IsSpelled)
    (secondSpelled : second.IsSpelled) {rest other : List Char} (restCloses : Closes rest)
    (otherCloses : Closes other)
    (same : first.content.toList ++ rest = second.content.toList ++ other) :
    first.content = second.content ∧ rest = other := by
  by_cases quoted : first.IsQuoted
  · obtain ⟨rfl, sameRest⟩ := leaf_inj_of_quoted quoted secondSpelled same
    exact ⟨rfl, sameRest⟩
  by_cases otherQuoted : second.IsQuoted
  · obtain ⟨rfl, sameRest⟩ := leaf_inj_of_quoted otherQuoted firstSpelled same.symm
    exact ⟨rfl, sameRest.symm⟩
  obtain ⟨sameContent, sameRest⟩ := (firstSpelled.resolve_left quoted).1.append_inj
    (secondSpelled.resolve_left otherQuoted).1 restCloses.atStop otherCloses.atStop same
  exact ⟨String.toList_inj.mp sameContent, sameRest⟩

/-- Leaves are told apart by their contents where those without quotes are. -/
theorem leaf_eq_of_content_eq {γ : Type} {told : ElementLeaf → γ} {first second : ElementLeaf}
    (firstSpelled : first.IsSpelled) (secondSpelled : second.IsSpelled)
    (unquoted : ¬ first.IsQuoted → ¬ second.IsQuoted → first.content = second.content →
      told first = told second)
    (same : first.content = second.content) : told first = told second := by
  have spelled : first.content.toList ++ [] = second.content.toList ++ [] := by rw [same]
  by_cases quoted : first.IsQuoted
  · rw [(leaf_inj_of_quoted quoted secondSpelled spelled).1]
  by_cases otherQuoted : second.IsQuoted
  · rw [(leaf_inj_of_quoted otherQuoted firstSpelled spelled.symm).1]
  exact unquoted quoted otherQuoted same

/-- An annotation begins like no leaf. -/
theorem leaf_ne_nested {leaf : ElementLeaf} (isSpelled : leaf.IsSpelled) {name : String}
    {elements : List (String × ElementValue)} (spelled : Spelled (.nested name elements))
    {rest other : List Char} (closes : Closes rest) :
    leaf.content.toList ++ rest ≠ (content (.nested name elements)).toList ++ other := by
  intro same
  have marks : mark (.leaf leaf) = none := Spelled.mark_eq (.leaf isSpelled) spelled same
  have bare := (isSpelled.resolve_left (mark_eq_none_iff.mp marks)).1
  rw [toList_content_nested] at same
  have opens : StartsWith IsStop ('\x7b' :: ("N=".toList ++ (name.toList ++
      afterName elements other))) := startsWith_cons (by decide) _
  have front : Bare ['A'] := .char (by decide) .nil
  obtain ⟨_, rfl⟩ := bare.append_inj front closes.atStop opens same
  obtain ⟨c, tail, begins, isCloser⟩ := closes
  rw [← (List.cons.inj begins).1] at isCloser
  exact absurd isCloser (by decide)

theorem showsOutline_leaf {leaf : ElementLeaf} (isSpelled : leaf.IsSpelled) :
    ShowsOutline (.leaf leaf) := by
  intro second secondSpelled rest other restCloses otherCloses same
  cases secondSpelled with
  | leaf otherSpelled =>
    obtain ⟨sameContent, sameRest⟩ :=
      leaf_content_inj isSpelled otherSpelled restCloses otherCloses same
    exact ⟨congrArg Outline.leaf sameContent, sameRest⟩
  | array each =>
    have marks := Spelled.mark_eq (.leaf isSpelled) (.array each) same
    cases leaf <;> cases marks
  | nested plain keys each =>
    exact absurd same (leaf_ne_nested isSpelled (.nested plain keys each) restCloses)

theorem showsOutline_array {items : List ElementValue}
    (spelled : ∀ item ∈ items, item.Spelled) (each : ∀ item ∈ items, item.ShowsOutline) :
    ShowsOutline (.array items) := by
  intro second secondSpelled rest other restCloses otherCloses same
  have marks := Spelled.mark_eq (.array spelled) secondSpelled same
  cases secondSpelled with
  | array otherSpelled =>
    rw [toList_content_array, toList_content_array] at same
    obtain ⟨sameItems, sameRest⟩ := closed_list_map_inj (outline ElementLeaf.content) rfl
      (by decide) (by decide)
      (fun item member next nextMember => each item member (otherSpelled next nextMember))
      (fun item member => Spelled.not_closes (spelled item member))
      (fun item member => Spelled.not_closes (otherSpelled item member)) (List.cons.inj same).2
    rw [outline, outline, itemOutlines_eq_map, itemOutlines_eq_map, sameItems]
    exact ⟨rfl, sameRest⟩
  | @leaf leaf _ => cases leaf <;> cases marks
  | nested => cases marks

theorem elementChars_map_inj {first second : String × ElementValue} (firstKey : IsName first.1)
    (secondKey : IsName second.1) (shows : first.2.ShowsOutline) (secondSpelled : second.2.Spelled)
    {rest other : List Char} (restCloses : Closes rest) (otherCloses : Closes other)
    (same : elementChars first ++ rest = elementChars second ++ other) :
    (first.1, first.2.outline ElementLeaf.content) =
      (second.1, second.2.outline ElementLeaf.content) ∧ rest = other := by
  simp only [elementChars, List.append_assoc, List.cons_append] at same
  have equals : ∀ after, StartsWith IsDelimiter ('=' :: after) := startsWith_cons (by decide)
  obtain ⟨sameKey, sameValue⟩ :=
    append_inj_of_unmarked firstKey secondKey (equals _) (equals _) same
  obtain ⟨sameOutline, sameRest⟩ :=
    shows secondSpelled restCloses otherCloses (List.cons.inj sameValue).2
  exact ⟨Prod.ext (String.toList_inj.mp sameKey) sameOutline, sameRest⟩

theorem elementChars_not_closes {element : String × ElementValue} (key : IsName element.1)
    (after : List Char) : ¬ Closes (elementChars element ++ after) := by
  rintro ⟨closer, tail, begins, isCloser⟩
  rw [elementChars] at begins
  cases spelled : element.1.toList with
  | nil =>
    rw [spelled] at begins
    rw [← (List.cons.inj begins).1] at isCloser
    exact absurd isCloser (by decide)
  | cons c front =>
    rw [spelled] at begins
    refine key c (by simp [spelled]) ?_
    rw [(List.cons.inj begins).1]
    exact isCloser.isDelimiter

/-- What follows the name of an annotation shows the outlines of its elements. -/
theorem elementOutlines_eq_of_afterName_eq {elements others : List (String × ElementValue)}
    (keys : ∀ element ∈ elements, IsName element.1)
    (otherKeys : ∀ element ∈ others, IsName element.1)
    (spelled : ∀ element ∈ others, element.2.Spelled)
    (each : ∀ element ∈ elements, element.2.ShowsOutline) {rest other : List Char}
    (same : afterName elements rest = afterName others other) :
    elementOutlines ElementLeaf.content elements = elementOutlines ElementLeaf.content others ∧
      rest = other := by
  -- An annotation without elements is closed right after its name.
  by_cases empty : elements = []
  · by_cases otherEmpty : others = []
    · rw [afterName, afterName, if_pos empty, if_pos otherEmpty] at same
      rw [empty, otherEmpty]
      exact ⟨rfl, (List.cons.inj same).2⟩
    · rw [afterName, afterName, if_pos empty, if_neg otherEmpty] at same
      simp at same
  · by_cases otherEmpty : others = []
    · rw [afterName, afterName, if_neg empty, if_pos otherEmpty] at same
      simp at same
    · rw [afterName, afterName, if_neg empty, if_neg otherEmpty] at same
      obtain ⟨sameElements, sameEnd⟩ := closed_list_map_inj
        (fun element : String × ElementValue =>
          (element.1, element.2.outline ElementLeaf.content)) rfl (by decide) (by decide)
        (fun element member next nextMember {_ _} => elementChars_map_inj (keys element member)
          (otherKeys next nextMember) (each element member) (spelled next nextMember))
        (fun element member => elementChars_not_closes (keys element member))
        (fun element member => elementChars_not_closes (otherKeys element member))
        (List.append_cancel_left same)
      rw [elementOutlines_eq_map, elementOutlines_eq_map, sameElements]
      exact ⟨rfl, (List.cons.inj sameEnd).2⟩

theorem showsOutline_nested {name : String} {elements : List (String × ElementValue)}
    (plain : IsPlain name) (keys : ∀ element ∈ elements, IsName element.1)
    (spelled : ∀ element ∈ elements, element.2.Spelled)
    (each : ∀ element ∈ elements, element.2.ShowsOutline) :
    ShowsOutline (.nested name elements) := by
  intro second secondSpelled rest other restCloses otherCloses same
  have marks := Spelled.mark_eq (.nested plain keys spelled) secondSpelled same
  cases secondSpelled with
  | nested otherPlain otherKeys otherSpelled =>
    rw [toList_content_nested, toList_content_nested] at same
    obtain ⟨rfl, sameAfter⟩ := append_inj_of_plain plain otherPlain
      (atMark_afterName _ _) (atMark_afterName _ _) (List.append_cancel_left same)
    obtain ⟨sameElements, sameRest⟩ :=
      elementOutlines_eq_of_afterName_eq keys otherKeys otherSpelled each sameAfter
    rw [outline, outline, sameElements]
    exact ⟨rfl, sameRest⟩
  | leaf isSpelled =>
    exact absurd same.symm
      (leaf_ne_nested isSpelled (.nested plain keys spelled) otherCloses)
  | array => cases marks

/-- The outlines of values are told from each other by the contents, at any
depth. -/
theorem Spelled.showsOutline {value : ElementValue} (spelled : value.Spelled) :
    value.ShowsOutline := by
  induction spelled with
  | leaf isSpelled => exact showsOutline_leaf isSpelled
  | array each inductionHypothesis => exact showsOutline_array each inductionHypothesis
  | nested plain keys each inductionHypothesis =>
    exact showsOutline_nested plain keys each inductionHypothesis

/-! ## Contents from outlines -/

mutual

/-- A content shows nothing but the outline. -/
theorem content_eq_of_outline_eq : ∀ first second : ElementValue,
    first.outline ElementLeaf.content = second.outline ElementLeaf.content →
      first.content = second.content
  | .leaf _, .leaf _, same => by
      injection same
  | .array first, .array second, same => by
      injection same with sameItems
      rw [content, content, itemContents_eq_of_outlines_eq first second sameItems]
  | .nested _ first, .nested _ second, same => by
      injection same with sameName sameElements
      have contents := elementContents_eq_of_outlines_eq first second sameElements
      have empty : first.isEmpty = second.isEmpty := by
        simpa [elementContents_eq_map] using congrArg List.isEmpty contents
      rw [content, content, sameName, contents, empty]

theorem itemContents_eq_of_outlines_eq : ∀ first second : List ElementValue,
    itemOutlines ElementLeaf.content first = itemOutlines ElementLeaf.content second →
      itemContents first = itemContents second
  | [], [], _ => rfl
  | first :: firsts, second :: seconds, same => by
      injection same with sameHead sameTail
      rw [itemContents, itemContents, content_eq_of_outline_eq first second sameHead,
        itemContents_eq_of_outlines_eq firsts seconds sameTail]

theorem elementContents_eq_of_outlines_eq : ∀ first second : List (String × ElementValue),
    elementOutlines ElementLeaf.content first = elementOutlines ElementLeaf.content second →
      elementContents first = elementContents second
  | [], [], _ => rfl
  | (_, first) :: firsts, (_, second) :: seconds, same => by
      injection same with sameHead sameTail
      obtain ⟨sameKey, sameValue⟩ := Prod.mk.inj sameHead
      rw [elementContents, elementContents, sameKey,
        content_eq_of_outline_eq first second sameValue,
        elementContents_eq_of_outlines_eq firsts seconds sameTail]

end

theorem Spelled.content_eq_iff {first second : ElementValue} (firstSpelled : first.Spelled)
    (secondSpelled : second.Spelled) :
    first.content = second.content ↔
      first.outline ElementLeaf.content = second.outline ElementLeaf.content := by
  constructor
  · intro same
    have closes : Closes [']'] := startsWith_cons (by decide) []
    exact (firstSpelled.showsOutline secondSpelled closes closes (by rw [same])).1
  · exact content_eq_of_outline_eq first second

end ElementValue

end JvmDiff
