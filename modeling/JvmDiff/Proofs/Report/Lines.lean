import JvmDiff.Comparison.Snapshots
import JvmDiff.Report.Text
import JvmDiff.Proofs.Comparison.Conformance
import JvmDiff.Proofs.Matching.Plain
import JvmDiff.Proofs.Snapshot.Sources
import JvmDiff.Proofs.Text.Lines

/-!
# The lines of a report

A report for a reader is made of lines, each of them closed by a line feed.  The texts that come from
the two versions are shown as they are, so each line feed in one of them breaks the line that shows
it, and nothing else does.
-/

namespace JvmDiff

namespace Message

open Text

/-! ## Messages -/

instance : DecidablePred Piece.IsPlain
  | .literal text => inferInstanceAs (Decidable ('\x7b' ∉ text))
  | .place _ => inferInstanceAs (Decidable True)

/-- The number of a place. -/
def Piece.number? : Piece → Option Nat
  | .literal _ => none
  | .place number => some number

/-- The pieces of a template whose places have numbers of one digit. -/
def pieces : List Char → List Piece
  | '\x7b' :: digit :: '\x7d' :: rest => .place (digit.toNat - '0'.toNat) :: pieces rest
  | c :: rest => .literal [c] :: pieces rest
  | [] => []

/-- The template is one line with places for so many arguments, once for each of
them and in their order. -/
structure Orderly (template : String) (arity : Nat) : Prop where
  consists : Consists template (pieces template.toList)
  numbers : (pieces template.toList).filterMap Piece.number? = List.range arity
  isLine : IsLine template

instance (template : String) (arity : Nat) : Decidable (Orderly template arity) :=
  decidable_of_iff
    (((template.toList = (pieces template.toList).flatMap Piece.written) ∧
        ∀ piece ∈ pieces template.toList, piece.IsPlain) ∧
      (pieces template.toList).filterMap Piece.number? = List.range arity ∧ IsLine template)
    ⟨fun ⟨⟨spelled, plain⟩, numbers, isLine⟩ => ⟨⟨spelled, plain⟩, numbers, isLine⟩,
      fun ⟨⟨spelled, plain⟩, numbers, isLine⟩ => ⟨⟨spelled, plain⟩, numbers, isLine⟩⟩

/-- The line feeds in the argument with the number, none if there is no such
argument. -/
def feedsAt (arguments : List Argument) (number : Nat) : Nat :=
  (arguments[number]?.map fun argument => feeds argument.display).getD 0

theorem count_filled {arguments : List Argument} {found : List Piece}
    (noFeed : '\n' ∉ found.flatMap Piece.written) :
    (found.flatMap (Piece.filled arguments)).count '\n' =
      ((found.filterMap Piece.number?).map (feedsAt arguments)).sum := by
  induction found with
  | nil => rfl
  | cons piece found inductionHypothesis =>
    rw [List.flatMap_cons, List.mem_append, not_or] at noFeed
    rw [List.flatMap_cons, List.count_append, inductionHypothesis noFeed.2]
    cases piece with
    | literal text =>
      have none : text.count '\n' = 0 := List.count_eq_zero.mpr noFeed.1
      rw [List.filterMap_cons_none rfl, Piece.filled, none, Nat.zero_add]
    | place number =>
      have counted : (Piece.place number :: found).filterMap Piece.number? =
          number :: found.filterMap Piece.number? := rfl
      rw [counted, List.map_cons, List.sum_cons, Piece.filled, feedsAt]
      cases arguments[number]? with
      | none =>
        have none : (Piece.place number).written.count '\n' = 0 := List.count_eq_zero.mpr noFeed.1
        exact congrArg (· + _) none
      | some argument => rfl

theorem map_feedsAt_range (arguments : List Argument) :
    (List.range arguments.length).map (feedsAt arguments) =
      arguments.map fun argument => feeds argument.display := by
  apply List.ext_getElem
  · simp
  · intro number bound _
    have inside : number < arguments.length := by simpa using bound
    simp [feedsAt, inside]

/-- Each line feed of an argument comes into the message once. -/
theorem Orderly.feeds_fill {template : String} {arguments : List Argument}
    (orderly : Orderly template arguments.length) :
    feeds (fill template arguments) =
      (arguments.map fun argument => feeds argument.display).sum := by
  have noFeed := orderly.isLine
  rw [IsLine, orderly.consists.spelled] at noFeed
  rw [feeds, orderly.consists.fill_eq, String.toList_ofList, count_filled noFeed,
    orderly.numbers, map_feedsAt_range]

end Message

namespace Comparison

open Text

theorem feeds_message {topic : Topic} {severity : Severity} {kind : ChangeKind}
    {arguments : List Argument} (listed : topic ∈ Topic.all)
    (orderly : Message.Orderly topic.template arguments.length) :
    feeds (Change.message ⟨severity, kind, topic.key, arguments⟩) =
      (arguments.map fun argument => feeds argument.display).sum := by
  rw [Change.message, Message.render, Topic.template?_key topic listed]
  exact orderly.feeds_fill

/-- The message of a change has the line feeds of its arguments. -/
theorem Told.feeds_message {parts : List PartTopics} {change : Change} (told : Told parts change)
    (areParts : parts ⊆ classParts ++ packageParts) :
    feeds change.message = (change.arguments.map fun argument => feeds argument.display).sum := by
  cases told with
  | text isTopic owner previous next =>
    have orderly : ∀ topic ∈ textTopics, topic ∈ Topic.all ∧ Message.Orderly topic.template 3 := by
      decide +kernel
    exact Comparison.feeds_message (orderly _ isTopic).1 (orderly _ isTopic).2
  | access isTopic owner previous next =>
    have orderly : ∀ topic ∈ accessTopics,
        topic ∈ Topic.all ∧ Message.Orderly topic.template 5 := by
      decide +kernel
    exact Comparison.feeds_message (orderly _ isTopic).1 (orderly _ isTopic).2
  | version owner previous next =>
    have orderly : Message.Orderly Topic.classVersion.template 3 := by decide +kernel
    exact Comparison.feeds_message (by decide) orderly
  | constant owner previous next =>
    have orderly : Message.Orderly Topic.fieldValue.template 3 := by decide +kernel
    exact Comparison.feeds_message (by decide) orderly
  | element owner key previous next =>
    have orderly : Message.Orderly Topic.annotationValue.template 6 := by decide +kernel
    exact Comparison.feeds_message (by decide) orderly
  | removed isPart owner part =>
    have orderly : ∀ topics ∈ classParts ++ packageParts,
        topics.removed ∈ Topic.all ∧ Message.Orderly topics.removed.template 2 := by
      decide +kernel
    exact Comparison.feeds_message (orderly _ (areParts isPart)).1 (orderly _ (areParts isPart)).2
  | added isPart owner part =>
    have orderly : ∀ topics ∈ classParts ++ packageParts,
        topics.added ∈ Topic.all ∧ Message.Orderly topics.added.template 2 := by
      decide +kernel
    exact Comparison.feeds_message (orderly _ (areParts isPart)).1 (orderly _ (areParts isPart)).2

/-- Every change of a report comes from a comparison of two packages or two
classes. -/
theorem exists_told_of_mem_changes {runId : String} {minSeverity : Severity}
    {previous next : Snapshot} {change : Change}
    (member : change ∈ (ofSnapshots runId minSeverity previous next).changes) :
    ∃ parts, parts ⊆ classParts ++ packageParts ∧ Told parts change := by
  rcases List.mem_append.mp member with inPackages | inClasses
  · obtain ⟨group, groupMember, inGroup⟩ := List.mem_flatMap.mp inPackages
    obtain ⟨name, _, rfl⟩ := List.mem_map.mp (List.mem_filter.mp groupMember).1
    exact ⟨packageParts, List.subset_append_right _ _,
      allTold_ofPackage _ _ change (List.mem_filter.mp inGroup).1⟩
  · obtain ⟨group, groupMember, inGroup⟩ := List.mem_flatMap.mp inClasses
    obtain ⟨pair, _, rfl⟩ := List.mem_map.mp (List.mem_filter.mp groupMember).1
    exact ⟨classParts, List.subset_append_left _ _,
      allTold_ofClass _ _ change (List.mem_filter.mp inGroup).1⟩

end Comparison

namespace Report

open Text

/-! ## Lines -/

theorem feeds_changeLine {change : Change}
    (messageFeeds : feeds change.message =
      (change.arguments.map fun argument => feeds argument.display).sum) :
    feeds (changeLine change) =
      (change.arguments.map fun argument => feeds argument.display).sum := by
  have start : feeds ("  [" ++ change.severity.name ++ "] ") = 0 := by
    cases change.severity <;> decide
  rw [changeLine, feeds_append, start, Nat.zero_add, messageFeeds]

theorem isLine_changeLine_iff {change : Change}
    (messageFeeds : feeds change.message =
      (change.arguments.map fun argument => feeds argument.display).sum) :
    IsLine (changeLine change) ↔ ∀ argument ∈ change.arguments, IsLine argument.display := by
  rw [isLine_iff, feeds_changeLine messageFeeds, List.sum_eq_zero_iff_forall_eq_nat,
    List.forall_mem_map]
  simp only [isLine_iff]

theorem isLine_packageHeading_iff (name : String) : IsLine (packageHeading name) ↔ IsLine name := by
  have start : IsLine "== package " := by decide
  rw [packageHeading, isLine_append, and_iff_right start]
  split
  case isTrue unnamed => exact iff_of_true (by decide) (unnamed ▸ by decide)
  case isFalse => exact Iff.rfl

theorem isLine_classHeading_iff (name : String) : IsLine (classHeading name) ↔ IsLine name := by
  have start : IsLine "== " := by decide
  rw [classHeading, isLine_append, and_iff_right start]

theorem isLine_failureLine_iff (entry : SidedFailure) :
    IsLine (failureLine entry) ↔
      ∀ text ∈ [entry.failure.className, entry.failure.path, entry.failure.reason],
        IsLine text := by
  have start : IsLine ("  [" ++ entry.side.name ++ "] ") := by
    cases entry.side <;> decide
  have opening : IsLine " (" := by decide
  have closing : IsLine "): " := by decide
  simp only [failureLine, isLine_append] at start ⊢
  simp only [start, opening, closing, true_and, and_true, List.forall_mem_cons,
    List.not_mem_nil, false_imp_iff, implies_true, and_assoc]

theorem isLine_summaryLine (summary : Summary) : IsLine (summaryLine summary) := by
  have start : IsLine "Summary: " := by decide
  have errors := start.count summary.errors " error(s), " (by decide)
  have warnings := errors.count summary.warnings " warning(s), " (by decide)
  have infos := warnings.count summary.infos " info(s); " (by decide)
  have classes := infos.count summary.classesCompared " class(es) compared, " (by decide)
  exact classes.count summary.failures " failure(s)" (by decide)

/-- The texts of a group of changes that a report shows as they are. -/
def shownOf (group : ChangeGroup) : List String :=
  group.name :: group.changes.flatMap fun change => change.arguments.map Argument.display

/-- The texts that a report shows as they are. -/
def shown (report : Report) : List String :=
  [report.runId, report.previous, report.next] ++ report.packages.flatMap shownOf ++
    report.classes.flatMap shownOf ++
    report.failures.flatMap fun entry =>
      [entry.failure.className, entry.failure.path, entry.failure.reason]

/-- The message of each change has the line feeds of its arguments. -/
def FeedsOfArguments (changes : List Change) : Prop :=
  ∀ change ∈ changes,
    feeds change.message = (change.arguments.map fun argument => feeds argument.display).sum

theorem isLine_groupLines_iff {heading : String → String} {groups : List ChangeGroup}
    (isHeading : ∀ name, IsLine (heading name) ↔ IsLine name)
    (messageFeeds : FeedsOfArguments (groups.flatMap ChangeGroup.changes)) :
    (∀ line ∈ groups.flatMap (groupLines heading), IsLine line) ↔
      ∀ text ∈ groups.flatMap shownOf, IsLine text := by
  have empty : IsLine "" := by decide
  simp only [FeedsOfArguments, List.forall_mem_flatMap] at messageFeeds ⊢
  refine forall₂_congr fun group member => ?_
  have changeLines : (∀ line ∈ group.changes.map changeLine, IsLine line) ↔
      ∀ text ∈ group.changes.flatMap (fun change => change.arguments.map Argument.display),
        IsLine text := by
    simp only [List.forall_mem_map, List.forall_mem_flatMap]
    exact forall₂_congr fun change inGroup =>
      isLine_changeLine_iff (messageFeeds group member change inGroup)
  rw [groupLines, block, shownOf, List.forall_mem_cons, List.forall_mem_cons, List.forall_mem_cons,
    and_iff_right empty, isHeading, changeLines]

theorem isLine_failureLines_iff (failures : List SidedFailure) :
    (∀ line ∈ failureLines failures, IsLine line) ↔
      ∀ text ∈ failures.flatMap (fun entry =>
        [entry.failure.className, entry.failure.path, entry.failure.reason]), IsLine text := by
  have empty : IsLine "" := by decide
  have heading : IsLine "Failures:" := by decide
  cases failures with
  | nil => exact Iff.rfl
  | cons entry failures =>
    rw [failureLines, block, List.forall_mem_cons, List.forall_mem_cons, and_iff_right empty,
      and_iff_right heading, List.forall_mem_map, List.forall_mem_flatMap]
    · exact forall₂_congr fun entry _ => isLine_failureLine_iff entry
    · exact List.cons_ne_nil _ _

/-- No line of a report is broken just when no text that it shows has a line feed. -/
theorem isLine_lines_iff {report : Report} (messageFeeds : FeedsOfArguments report.changes) :
    (∀ line ∈ report.lines, IsLine line) ↔ ∀ text ∈ report.shown, IsLine text := by
  obtain ⟨packagesFeeds, classesFeeds⟩ := List.forall_mem_append.mp messageFeeds
  have head : (∀ line ∈ ["classdelta report " ++ report.runId, "previous: " ++ report.previous,
      "next:     " ++ report.next], IsLine line) ↔
      ∀ text ∈ [report.runId, report.previous, report.next], IsLine text := by
    have starts : IsLine "classdelta report " ∧ IsLine "previous: " ∧ IsLine "next:     " := by
      decide
    simp only [List.forall_mem_cons, isLine_append, starts, true_and]
  have summary : ∀ line ∈ block (summaryLine report.summary) [], IsLine line := by
    have empty : IsLine "" := by decide
    exact List.forall_mem_cons.mpr
      ⟨empty, List.forall_mem_singleton.mpr (isLine_summaryLine report.summary)⟩
  rw [lines, shown]
  simp only [List.forall_mem_append]
  rw [and_iff_left summary, head, isLine_groupLines_iff isLine_packageHeading_iff packagesFeeds,
    isLine_groupLines_iff isLine_classHeading_iff classesFeeds, isLine_failureLines_iff]

end Report

namespace Comparison

open Text Report

theorem feedsOfArguments_ofSnapshots (runId : String) (minSeverity : Severity)
    (previous next : Snapshot) :
    FeedsOfArguments (ofSnapshots runId minSeverity previous next).changes := by
  intro change member
  obtain ⟨parts, areParts, told⟩ := exists_told_of_mem_changes member
  exact told.feeds_message areParts

/-- The text of a report has three lines for its head, and blocks of lines after empty
ones: for each package and each class with a line for each change, for the failures, and
for the summary.  These are the rows of the text if no text that the report shows has a
line feed, and only then.  In any case a row ends only at the end of a line or at a line
feed in a text that is shown; so a change takes one row more than its arguments have line
feeds. -/
theorem rows_text_ofSnapshots (runId : String) (minSeverity : Severity)
    (previous next : Snapshot) :
    let report := ofSnapshots runId minSeverity previous next
    let groupLines (heading : String) (group : ChangeGroup) : List String :=
      ["", heading] ++ group.changes.map fun change =>
        "  [" ++ change.severity.name ++ "] " ++ change.message
    let lines : List String :=
      ["classdelta report " ++ runId, "previous: " ++ previous.root,
          "next:     " ++ next.root] ++
        report.packages.flatMap (fun group =>
          groupLines ("== package " ++ if group.name = "" then "(default package)" else group.name)
            group) ++
        report.classes.flatMap (fun group => groupLines ("== " ++ group.name) group) ++
        (if report.failures = [] then [] else
          ["", "Failures:"] ++ report.failures.map fun entry =>
            "  [" ++ entry.side.name ++ "] " ++ entry.failure.className ++ " (" ++
              entry.failure.path ++ "): " ++ entry.failure.reason) ++
        ["", summaryLine report.summary]
    (rows report.text = lines.map String.toList ++ [[]] ↔
      ∀ text ∈ report.shown, IsLine text) ∧
    rows report.text = lines.flatMap rows ++ [[]] ∧
    ∀ change ∈ report.changes, (rows (changeLine change)).length =
      (change.arguments.map fun argument => feeds argument.display).sum + 1 := by
  intro report groupLines lines
  have messageFeeds := feedsOfArguments_ofSnapshots runId minSeverity previous next
  have failures : failureLines report.failures =
      if report.failures = [] then [] else ["", "Failures:"] ++ report.failures.map failureLine := by
    cases report.failures <;> rfl
  have sameLines : report.lines = lines := by
    rw [Report.lines, failures]
    rfl
  have broken : rows report.text = lines.flatMap rows ++ [[]] := by
    rw [Report.text, rows_join, sameLines]
  refine ⟨?_, broken, fun change member => ?_⟩
  · rw [broken, List.append_cancel_right_eq, flatMap_rows_eq_iff, ← sameLines]
    exact isLine_lines_iff messageFeeds
  · rw [length_rows, feeds_changeLine (messageFeeds change member)]

/-- A constant of two lines makes two rows out of the line of the change that shows it. -/
theorem constant_breaks_line :
    let box (constant : Option Constant) : Loading :=
      let field : Field.Declared :=
        { name := "a", type := "java.lang.String", access := ⟨25⟩, constant := constant }
      ⟨"root", [{ content := Class.Declared.toClass { name := "Box", fields := [field.toField] } }],
        []⟩
    let change : Change :=
      ⟨.error, .modified, "field.value.modified", [.text "a", .text "one\ntwo", .null]⟩
    let report := ofSnapshots "run" .info (box (some (.string "one\ntwo"))).snapshot
      (box none).snapshot
    report.classes = [⟨"Box", [change]⟩] ∧
      rows report.text ≠ report.lines.map String.toList ++ [[]] := by
  intro box change report
  have told : report.classes = [⟨"Box", [change]⟩] := by
    change nonempty (classGroups .info (box _).snapshot (box _).snapshot) = _
    simp only [classGroups, ofClass, ofEntities, ofAnnotations, ofNames, Matching.ofEntities,
      Matching.ofTexts, Matching.of_eq_plain]
    decide +kernel
  refine ⟨told, fun inLines => ?_⟩
  rw [Report.text, rows_join, List.append_cancel_right_eq, flatMap_rows_eq_iff] at inLines
  have line : changeLine change ∈ report.classes.flatMap (groupLines classHeading) := by
    rw [told]
    exact List.mem_cons_of_mem _ (List.mem_cons_of_mem _ List.mem_cons_self)
  have broken : ¬IsLine (changeLine change) := by
    decide +kernel
  exact broken <| inLines _ <|
    List.mem_append_left _ (List.mem_append_left _ (List.mem_append_right _ line))

end Comparison

end JvmDiff
