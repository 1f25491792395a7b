import JvmDiff.Json.Reader
import JvmDiff.Proofs.Json.Tokens

/-!
# Values read back

The text of a value holds the tokens of the value, in either layout, and the tokens build the
value up again, whatever is open around it.  So every value whose numbers fit into 64 bits is read
back from its text.
-/

namespace JvmDiff.Json

/-! ## The tokens of a value -/

mutual

/-- What the text of a value is made of. -/
def tokens : Json → List Token
  | .null => [.null]
  | .boolean value => [.boolean value]
  | .integer value => [.integer value]
  | .decimal isNegative significand exponent => [.decimal isNegative significand exponent]
  | .string text => [.string text]
  | .array [] => [.openArray, .closeArray]
  | .array (item :: items) => .openArray :: (tokens item ++ itemTokens items)
  | .object [] => [.openObject, .closeObject]
  | .object ((key, value) :: members) =>
      .openObject :: .string key :: .colon :: (tokens value ++ memberTokens members)

/-- The items after the first one and the end of an array. -/
def itemTokens : List Json → List Token
  | [] => [.closeArray]
  | item :: items => .comma :: (tokens item ++ itemTokens items)

/-- The members after the first one and the end of an object. -/
def memberTokens : List (Option String × Json) → List Token
  | [] => [.closeObject]
  | (key, value) :: members =>
      .comma :: .string key :: .colon :: (tokens value ++ memberTokens members)

end

/-! ## From the text to the tokens -/

/-- A number is kept if it fits into 64 bits. -/
def Token.IsKept : Token → Prop
  | .integer value => value.natAbs ≤ maxSignificand
  | .decimal _ significand _ => significand ≤ maxSignificand
  | _ => True

/-- Every number in the value is kept. -/
def IsKept (value : Json) : Prop :=
  ∀ token ∈ value.tokens, token.IsKept

theorem isKept_integer {value : Int} :
    (Json.integer value).IsKept ↔ value.natAbs ≤ Token.maxSignificand := by
  simp [IsKept, tokens, Token.IsKept]

theorem isKept_decimal {isNegative : Bool} {significand : Nat} {exponent : Int} :
    (Json.decimal isNegative significand exponent).IsKept ↔
      significand ≤ Token.maxSignificand := by
  simp [IsKept, tokens, Token.IsKept]

theorem isKept_array_cons {item : Json} {items : List Json} :
    (Json.array (item :: items)).IsKept ↔
      item.IsKept ∧ ∀ token ∈ itemTokens items, token.IsKept := by
  simp only [IsKept, tokens, List.forall_mem_cons, List.forall_mem_append, Token.IsKept, true_and]

theorem isKept_object_cons {key : Option String} {value : Json}
    {members : List (Option String × Json)} :
    (Json.object ((key, value) :: members)).IsKept ↔
      value.IsKept ∧ ∀ token ∈ memberTokens members, token.IsKept := by
  simp only [IsKept, tokens, List.forall_mem_cons, List.forall_mem_append, Token.IsKept, true_and]

theorem isKept_itemTokens_cons {item : Json} {items : List Json} :
    (∀ token ∈ itemTokens (item :: items), token.IsKept) ↔
      item.IsKept ∧ ∀ token ∈ itemTokens items, token.IsKept := by
  simp only [IsKept, itemTokens, List.forall_mem_cons, List.forall_mem_append, Token.IsKept,
    true_and]

theorem isKept_memberTokens_cons {key : Option String} {value : Json}
    {members : List (Option String × Json)} :
    (∀ token ∈ memberTokens ((key, value) :: members), token.IsKept) ↔
      value.IsKept ∧ ∀ token ∈ memberTokens members, token.IsKept := by
  simp only [IsKept, memberTokens, List.forall_mem_cons, List.forall_mem_append, Token.IsKept,
    true_and]

section Lexed

open Token

theorem all?_lineStart (layout : Layout) (depth : Nat) (rest : List Char) :
    all? (layout.lineStart depth ++ rest) = all? rest := by
  cases layout with
  | compact => rfl
  | pretty =>
    rw [Layout.lineStart, List.cons_append, all?_space rfl]
    induction 2 * depth with
    | zero => rfl
    | succ count inductionHypothesis =>
      rw [List.replicate_succ, List.cons_append, all?_space rfl, inductionHypothesis]

theorem all?_colon (layout : Layout) {rest : List Char} {others : List Token}
    (lexed : all? rest = some others) :
    all? (layout.colon ++ rest) = some (.colon :: others) := by
  cases layout with
  | compact => exact (starts_punctuation rfl rest).all? lexed
  | pretty => exact (starts_punctuation rfl (' ' :: rest)).all? ((all?_space rfl rest).trans lexed)

theorem all?_item (layout : Layout) (depth : Nat) {mark : Char} {token : Token}
    (isMark : punctuation? mark = some token) {rest : List Char} {others : List Token}
    (lexed : all? rest = some others) :
    all? (mark :: layout.lineStart depth ++ rest) = some (token :: others) :=
  (starts_punctuation isMark _).all? ((all?_lineStart layout depth rest).trans lexed)

theorem all?_member (layout : Layout) (depth : Nat) {mark : Char} {token : Token}
    (isMark : punctuation? mark = some token) (key : Option String) {rest : List Char}
    {others : List Token} (lexed : all? rest = some others) :
    all? (mark :: layout.lineStart depth ++ (stringChars key ++ (layout.colon ++ rest))) =
      some (token :: .string key :: .colon :: others) :=
  all?_item layout depth isMark ((starts_string key _).all? (all?_colon layout lexed))

theorem endsNumber_lineStart (layout : Layout) (depth : Nat) {c : Char} (ends : ¬ Lengthens c)
    (rest : List Char) : EndsNumber (layout.lineStart depth ++ c :: rest) := by
  cases layout with
  | compact => exact endsNumber_cons ends rest
  | pretty => exact endsNumber_cons (by decide) _

variable {layout : Layout}

theorem endsNumber_itemChars (depth : Nat) (items : List Json) (rest : List Char) :
    EndsNumber (itemChars layout depth items ++ rest) := by
  cases items with
  | nil =>
    rw [itemChars, List.append_assoc]
    exact endsNumber_lineStart layout depth (by decide) rest
  | cons item items =>
    rw [itemChars]
    exact endsNumber_cons (by decide) _

theorem endsNumber_memberChars (depth : Nat) (members : List (Option String × Json))
    (rest : List Char) : EndsNumber (memberChars layout depth members ++ rest) := by
  cases members with
  | nil =>
    rw [memberChars, List.append_assoc]
    exact endsNumber_lineStart layout depth (by decide) rest
  | cons member members =>
    rw [memberChars]
    exact endsNumber_cons (by decide) _

mutual

theorem all?_chars : ∀ (value : Json) (depth : Nat) {rest : List Char} {others : List Token},
    value.IsKept → EndsNumber rest → all? rest = some others →
      all? (chars layout depth value ++ rest) = some (value.tokens ++ others)
  | .null, depth, rest, others, _, _, lexed => by
      rw [chars, tokens]
      exact (starts_null rest).all? lexed
  | .boolean true, depth, rest, others, _, _, lexed => by
      rw [chars, tokens]
      exact (starts_true rest).all? lexed
  | .boolean false, depth, rest, others, _, _, lexed => by
      rw [chars, tokens]
      exact (starts_false rest).all? lexed
  | .integer value, depth, rest, others, kept, ends, lexed => by
      rw [chars, tokens]
      exact (starts_integer (isKept_integer.mp kept) ends).all? lexed
  | .decimal isNegative significand exponent, depth, rest, others, kept, ends, lexed => by
      rw [chars, tokens]
      exact (starts_decimal isNegative (isKept_decimal.mp kept) exponent ends).all? lexed
  | .string text, depth, rest, others, _, _, lexed => by
      rw [chars, tokens]
      exact (starts_string text rest).all? lexed
  | .array [], depth, rest, others, _, _, lexed => by
      rw [chars, tokens]
      exact (starts_punctuation rfl _).all? ((starts_punctuation rfl rest).all? lexed)
  | .array (item :: items), depth, rest, others, kept, _, lexed => by
      obtain ⟨itemKept, itemsKept⟩ := isKept_array_cons.mp kept
      have itemsLexed := all?_itemChars items depth itemsKept lexed
      have itemLexed := all?_chars item (depth + 1) itemKept
        (endsNumber_itemChars depth items rest) itemsLexed
      rw [chars, tokens]
      simpa only [List.append_assoc, List.cons_append] using
        all?_item layout (depth + 1) rfl itemLexed
  | .object [], depth, rest, others, _, _, lexed => by
      rw [chars, tokens]
      exact (starts_punctuation rfl _).all? ((starts_punctuation rfl rest).all? lexed)
  | .object ((key, value) :: members), depth, rest, others, kept, _, lexed => by
      obtain ⟨valueKept, membersKept⟩ := isKept_object_cons.mp kept
      have membersLexed := all?_memberChars members depth membersKept lexed
      have valueLexed := all?_chars value (depth + 1) valueKept
        (endsNumber_memberChars depth members rest) membersLexed
      rw [chars, tokens]
      simpa only [List.append_assoc, List.cons_append] using
        all?_member layout (depth + 1) rfl key valueLexed

theorem all?_itemChars : ∀ (items : List Json) (depth : Nat) {rest : List Char}
    {others : List Token}, (∀ token ∈ itemTokens items, token.IsKept) → all? rest = some others →
      all? (itemChars layout depth items ++ rest) = some (itemTokens items ++ others)
  | [], depth, rest, others, _, lexed => by
      rw [itemChars, itemTokens, List.append_assoc, all?_lineStart]
      exact (starts_punctuation rfl rest).all? lexed
  | item :: items, depth, rest, others, kept, lexed => by
      obtain ⟨itemKept, itemsKept⟩ := isKept_itemTokens_cons.mp kept
      have itemsLexed := all?_itemChars items depth itemsKept lexed
      have itemLexed := all?_chars item (depth + 1) itemKept
        (endsNumber_itemChars depth items rest) itemsLexed
      rw [itemChars, itemTokens]
      simpa only [List.append_assoc, List.cons_append] using
        all?_item layout (depth + 1) rfl itemLexed

theorem all?_memberChars : ∀ (members : List (Option String × Json)) (depth : Nat)
    {rest : List Char} {others : List Token}, (∀ token ∈ memberTokens members, token.IsKept) →
      all? rest = some others →
        all? (memberChars layout depth members ++ rest) = some (memberTokens members ++ others)
  | [], depth, rest, others, _, lexed => by
      rw [memberChars, memberTokens, List.append_assoc, all?_lineStart]
      exact (starts_punctuation rfl rest).all? lexed
  | (key, value) :: members, depth, rest, others, kept, lexed => by
      obtain ⟨valueKept, membersKept⟩ := isKept_memberTokens_cons.mp kept
      have membersLexed := all?_memberChars members depth membersKept lexed
      have valueLexed := all?_chars value (depth + 1) valueKept
        (endsNumber_memberChars depth members rest) membersLexed
      rw [memberChars, memberTokens]
      simpa only [List.append_assoc, List.cons_append] using
        all?_member layout (depth + 1) rfl key valueLexed

end

end Lexed

/-! ## From the tokens to the value -/

section Read

open Reader

mutual

/-- The tokens of a value take the reader from where a value has to come to where it has been
read. -/
theorem foldlM_tokens : ∀ (value : Json) (canClose : Bool) (opened : List Opened)
    (others : List Token),
    (value.tokens ++ others).foldlM step (.needsValue canClose opened) =
      others.foldlM step (.hasValue value opened)
  | .null, _, _, _ => rfl
  | .boolean _, _, _, _ => rfl
  | .integer _, _, _, _ => rfl
  | .decimal _ _ _, _, _, _ => rfl
  | .string _, _, _, _ => rfl
  | .array [], _, _, _ => rfl
  | .array (item :: items), _, opened, others => by
      rw [tokens, List.cons_append, List.append_assoc]
      change (item.tokens ++ _).foldlM step (.needsValue true (.array [] :: opened)) = _
      rw [foldlM_tokens, foldlM_itemTokens]
      rfl
  | .object [], _, _, _ => rfl
  | .object ((key, value) :: members), _, opened, others => by
      rw [tokens, List.cons_append, List.cons_append, List.cons_append, List.append_assoc]
      change (value.tokens ++ _).foldlM step (.needsValue false (.object [] key :: opened)) = _
      rw [foldlM_tokens, foldlM_memberTokens]
      rfl

theorem foldlM_itemTokens : ∀ (items : List Json) (value : Json) (earlier : List Json)
    (outer : List Opened) (others : List Token),
    (itemTokens items ++ others).foldlM step (.hasValue value (.array earlier :: outer)) =
      others.foldlM step (.hasValue (.array (earlier.reverse ++ value :: items)) outer)
  | [], value, earlier, outer, others => by
      change others.foldlM step (.hasValue (.array (value :: earlier).reverse) outer) = _
      rw [List.reverse_cons]
  | item :: items, value, earlier, outer, others => by
      rw [itemTokens, List.cons_append, List.append_assoc]
      change (item.tokens ++ _).foldlM step
        (.needsValue false (.array (value :: earlier) :: outer)) = _
      rw [foldlM_tokens, foldlM_itemTokens, List.reverse_cons, List.append_assoc]
      rfl

theorem foldlM_memberTokens : ∀ (members : List (Option String × Json)) (value : Json)
    (earlier : List (Option String × Json)) (key : Option String) (outer : List Opened)
    (others : List Token),
    (memberTokens members ++ others).foldlM step
        (.hasValue value (.object earlier key :: outer)) =
      others.foldlM step
        (.hasValue (.object (earlier.reverse ++ (key, value) :: members)) outer)
  | [], value, earlier, key, outer, others => by
      change others.foldlM step (.hasValue (.object ((key, value) :: earlier).reverse) outer) = _
      rw [List.reverse_cons]
  | (next, nextValue) :: members, value, earlier, key, outer, others => by
      rw [memberTokens, List.cons_append, List.cons_append, List.cons_append, List.append_assoc]
      change (nextValue.tokens ++ _).foldlM step
        (.needsValue false (.object ((key, value) :: earlier) next :: outer)) = _
      rw [foldlM_tokens, foldlM_memberTokens, List.reverse_cons, List.append_assoc]
      rfl

end

theorem ofTokens?_tokens (value : Json) : ofTokens? value.tokens = some value := by
  have read := foldlM_tokens value false [] []
  rw [List.append_nil] at read
  rw [ofTokens?, start, read]
  rfl

end Read

/-! ## From the text to the value -/

section Text

variable {behind : List Char} (blank : ∀ c ∈ behind, Token.isSpace c = true)

include blank

theorem all?_blank : Token.all? behind = some [] := by
  induction behind with
  | nil => rw [Token.all?]
  | cons c behind inductionHypothesis =>
    obtain ⟨space, others⟩ := List.forall_mem_cons.mp blank
    rw [Token.all?_space space, inductionHypothesis others]

theorem endsNumber_blank : Token.EndsNumber behind := by
  intro c head lengthens
  have space := blank c (List.mem_of_mem_head? head)
  simp only [Token.isSpace, Bool.or_eq_true, decide_eq_true_eq] at space
  obtain ((rfl | rfl) | rfl) | rfl := space
  all_goals exact absurd lengthens (by decide)

/-- The text of a value is read back as the value, whatever blanks stand behind it. -/
theorem ofText?_render (layout : Layout) {value : Json} (kept : value.IsKept) :
    ofText? (value.render layout ++ String.ofList behind) = some value := by
  have lexed := @all?_chars layout value 0 behind [] kept (endsNumber_blank blank)
    (all?_blank blank)
  rw [List.append_nil] at lexed
  rw [ofText?, String.toList_append, String.toList_ofList, render, String.toList_ofList, lexed]
  exact ofTokens?_tokens value

end Text

end JvmDiff.Json
