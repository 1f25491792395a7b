import JvmDiff.Proofs.Content.Reading

/-!
# Delimiters of values

Values stand in a content between delimiters.  A text without delimiters ends before the first of
them, and so does one with no other delimiters than the brackets of array types, before the first
that is no bracket of its own.
-/

namespace JvmDiff

namespace Text

/-! ## Delimiters -/

/-- A character that structures the content of a value. -/
def IsDelimiter (c : Char) : Prop :=
  c ∈ [',', ' ', '=', '#', '\x7b', '\x7d', '[', ']', '"', '\'']

instance : DecidablePred IsDelimiter := fun c =>
  inferInstanceAs (Decidable (c ∈ [',', ' ', '=', '#', '\x7b', '\x7d', '[', ']', '"', '\'']))

/-- A character that may follow the content of a value. -/
def IsCloser (c : Char) : Prop :=
  c ∈ [',', ']', '\x7d']

instance : DecidablePred IsCloser := fun c =>
  inferInstanceAs (Decidable (c ∈ [',', ']', '\x7d']))

/-- A name, with or without dots: it has no delimiter. -/
def IsName (text : String) : Prop :=
  ∀ c ∈ text.toList, ¬ IsDelimiter c

instance : DecidablePred IsName := fun text =>
  List.decidableBAll (fun c => ¬ IsDelimiter c) text.toList

theorem IsDelimiter.not_isDigit {c : Char} (isDelimiter : IsDelimiter c) :
    ¬ c.isDigit = true := by
  simp only [IsDelimiter, List.mem_cons, List.not_mem_nil, or_false] at isDelimiter
  rcases isDelimiter with rfl | rfl | rfl | rfl | rfl | rfl | rfl | rfl | rfl | rfl <;> decide

theorem IsCloser.isDelimiter {c : Char} (isCloser : IsCloser c) : IsDelimiter c := by
  simp only [IsCloser, List.mem_cons, List.not_mem_nil, or_false] at isCloser
  rcases isCloser with rfl | rfl | rfl <;> decide

/-- The rest of a content after a value. -/
abbrev Closes : List Char → Prop :=
  StartsWith IsCloser

theorem closes_behind {α : Type} (text : α → List Char) {separator rest : List Char}
    (separatorCloses : Closes separator) (restCloses : Closes rest) (items : List α) :
    Closes (behind separator text rest items) := by
  cases items with
  | nil => exact restCloses
  | cons item items =>
    obtain ⟨c, tail, rfl, isCloser⟩ := separatorCloses
    exact startsWith_cons isCloser _

/-- What shows of a list of texts that are told from what follows them, between
its opening and its closer. -/
theorem closed_list_map_inj {α β : Type} (image : α → β) {text : α → List Char}
    {separator rest other : List Char} {closer : Char} {first second : List α}
    (comma : separator.head? = some ',') (isCloser : IsCloser closer) (noComma : closer ≠ ',')
    (each : ∀ item ∈ first, ∀ next ∈ second, ∀ {rest other}, Closes rest → Closes other →
      text item ++ rest = text next ++ other → image item = image next ∧ rest = other)
    (firstBegins : ∀ item ∈ first, ∀ after, ¬ Closes (text item ++ after))
    (secondBegins : ∀ item ∈ second, ∀ after, ¬ Closes (text item ++ after))
    (same : separator.intercalate (first.map text) ++ closer :: rest =
      separator.intercalate (second.map text) ++ closer :: other) :
    first.map image = second.map image ∧ rest = other := by
  obtain ⟨tail, rfl⟩ := List.head?_eq_some_iff.mp comma
  have separatorCloses : Closes (',' :: tail) := startsWith_cons (by decide) tail
  have closes : ∀ rest, Closes (closer :: rest) := startsWith_cons isCloser
  have noSeparator : ∀ rest, ¬ ',' :: tail <+: closer :: rest := by
    intro rest isPrefix
    exact noComma (List.cons_prefix_cons.mp isPrefix).1.symm
  obtain ⟨sameItems, sameEnd⟩ := intercalate_map_inj image Closes each
    (fun item member after equal => firstBegins item member after (equal ▸ closes _))
    (fun item member after equal => secondBegins item member after (equal ▸ closes _))
    (closes_behind text separatorCloses (closes _)) (closes_behind text separatorCloses (closes _))
    (noSeparator _) (noSeparator _) same
  exact ⟨sameItems, (List.cons.inj sameEnd).2⟩

theorem closed_list_inj {α : Type} {text : α → List Char} {separator rest other : List Char}
    {closer : Char} {first second : List α} (comma : separator.head? = some ',')
    (isCloser : IsCloser closer) (noComma : closer ≠ ',')
    (each : ∀ item ∈ first, ∀ next ∈ second, ∀ {rest other}, Closes rest → Closes other →
      text item ++ rest = text next ++ other → item = next ∧ rest = other)
    (firstBegins : ∀ item ∈ first, ∀ after, ¬ Closes (text item ++ after))
    (secondBegins : ∀ item ∈ second, ∀ after, ¬ Closes (text item ++ after))
    (same : separator.intercalate (first.map text) ++ closer :: rest =
      separator.intercalate (second.map text) ++ closer :: other) :
    first = second ∧ rest = other := by
  simpa using closed_list_map_inj id comma isCloser noComma each firstBegins secondBegins same

theorem isName_append {first second : String} (firstName : IsName first)
    (secondName : IsName second) : IsName (first ++ second) := by
  intro c member
  rw [String.toList_append, List.mem_append] at member
  exact member.elim (firstName c) (secondName c)

theorem IsName.isPlain {text : String} (isName : IsName text) : IsPlain text := by
  rintro c member (rfl | rfl)
  · exact isName _ member (by decide)
  · exact isName _ member (by decide)

/-! ## Texts without quotes -/

/-- A text whose only delimiters are the brackets of array types. -/
inductive Bare : List Char → Prop
  | nil : Bare []
  | char {c : Char} {tail : List Char} (noDelimiter : ¬ IsDelimiter c) (later : Bare tail) :
      Bare (c :: tail)
  | brackets {tail : List Char} (later : Bare tail) : Bare ('[' :: ']' :: tail)

/-- A character that no bare text begins with. -/
def IsStop (c : Char) : Prop :=
  IsDelimiter c ∧ c ≠ '['

instance : DecidablePred IsStop := fun c =>
  inferInstanceAs (Decidable (IsDelimiter c ∧ c ≠ '['))

theorem Closes.atStop {rest : List Char} (closes : Closes rest) : StartsWith IsStop rest := by
  obtain ⟨c, tail, rfl, isCloser⟩ := closes
  refine startsWith_cons ⟨isCloser.isDelimiter, ?_⟩ tail
  rintro rfl
  exact absurd isCloser (by decide)

theorem Bare.not_isStop {c : Char} {tail : List Char} (bare : Bare (c :: tail)) :
    ¬ IsStop c := by
  rintro ⟨isDelimiter, noBracket⟩
  cases bare with
  | char noDelimiter _ => exact noDelimiter isDelimiter
  | brackets _ => exact noBracket rfl

theorem Bare.append {first second : List Char} (firstBare : Bare first)
    (secondBare : Bare second) : Bare (first ++ second) := by
  induction firstBare with
  | nil => exact secondBare
  | char noDelimiter _ inductionHypothesis => exact .char noDelimiter inductionHypothesis
  | brackets _ inductionHypothesis => exact .brackets inductionHypothesis

theorem bare_of_forall {text : List Char} (noDelimiter : ∀ c ∈ text, ¬ IsDelimiter c) :
    Bare text := by
  induction text with
  | nil => exact .nil
  | cons c text inductionHypothesis =>
    exact .char (noDelimiter c List.mem_cons_self)
      (inductionHypothesis fun d member => noDelimiter d (List.mem_cons_of_mem c member))

theorem IsName.bare {text : String} (isName : IsName text) : Bare text.toList :=
  bare_of_forall isName

/-- The first stop after a bare text ends it. -/
theorem Bare.append_inj {first second rest other : List Char} (firstBare : Bare first)
    (secondBare : Bare second) (restStops : StartsWith IsStop rest)
    (otherStops : StartsWith IsStop other) (same : first ++ rest = second ++ other) :
    first = second ∧ rest = other := by
  have longer : ∀ {c tail after}, Bare (c :: tail) → ¬ StartsWith IsStop (c :: after) := by
    rintro c tail after bare ⟨d, _, sameHead, isStop⟩
    exact bare.not_isStop ((List.cons.inj sameHead).1 ▸ isStop)
  -- Where one text has ended, a stop follows, and the other cannot go on with a stop.
  induction firstBare generalizing second with
  | nil =>
    cases second with
    | nil => exact ⟨rfl, same⟩
    | cons d tail =>
      rw [List.nil_append] at same
      exact absurd (same ▸ restStops) (longer secondBare)
  | @char c tail noDelimiter later inductionHypothesis =>
    cases secondBare with
    | nil =>
      rw [List.nil_append] at same
      exact absurd (same ▸ otherStops) (longer (.char noDelimiter later))
    | char _ otherLater =>
      injection same with sameHead sameTail
      obtain ⟨rfl, sameRest⟩ := inductionHypothesis otherLater sameTail
      exact ⟨by rw [sameHead], sameRest⟩
    | brackets _ =>
      injection same with sameHead _
      exact absurd (by decide) (sameHead ▸ noDelimiter)
  | @brackets tail later inductionHypothesis =>
    cases secondBare with
    | nil =>
      rw [List.nil_append] at same
      exact absurd (same ▸ otherStops) (longer (.brackets later))
    | char otherNoDelimiter _ =>
      injection same with sameHead _
      exact absurd (by decide) (sameHead ▸ otherNoDelimiter)
    | brackets otherLater =>
      injection same with _ sameTail
      injection sameTail with _ sameTail
      obtain ⟨rfl, sameRest⟩ := inductionHypothesis otherLater sameTail
      exact ⟨rfl, sameRest⟩

end Text

end JvmDiff
