import JvmDiff.Proofs.Json.RoundTrip
import JvmDiff.Report.Data
import Mathlib.Data.List.Nodup

/-!
# Reports read back

A record is written as an object with each of its fields once, and each field is read back as what
has been written for it.  So a report and a change are read back from their texts, whatever texts
and numbers they hold.
-/

namespace JvmDiff

/-! ## Records, lists and their parts -/

theorem mapM_map_eq_some {α β : Type} {write : α → β} {read : β → Option α}
    (reads : ∀ item, read (write item) = some item) (items : List α) :
    (items.map write).mapM read = some items := by
  induction items with
  | nil => rfl
  | cons item items inductionHypothesis =>
    rw [List.map_cons, List.mapM_cons, reads, inductionHypothesis]
    rfl

namespace Json

section Record

variable {members : List (String × Json)} (distinct : (members.map Prod.fst).Nodup)

include distinct

theorem filter_key {key : String} {value : Json} (member : (key, value) ∈ members) :
    members.filter (fun other => other.1 = key) = [(key, value)] := by
  induction members with
  | nil => cases member
  | cons first others inductionHypothesis =>
    obtain ⟨isNew, othersDistinct⟩ := List.nodup_cons.mp distinct
    cases member with
    | head =>
      have noOther : others.filter (fun other => other.1 = key) = [] := by
        simp only [List.filter_eq_nil_iff, decide_eq_true_eq]
        intro other otherMember same
        exact isNew (List.mem_map.mpr ⟨other, otherMember, same⟩)
      rw [List.filter_cons_of_pos (by simp), noOther]
    | tail _ member =>
      have notFirst : first.1 ≠ key := fun same =>
        isNew (same ▸ List.mem_map_of_mem member)
      rw [List.filter_cons_of_neg (by simpa using notFirst)]
      exact inductionHypothesis othersDistinct member

theorem member?_record {key : String} {value : Json} (member : (key, value) ∈ members) :
    member? (members.map fun field => (some field.1, field.2)) key = some value := by
  have found : (members.map fun field => (some field.1, field.2)).filter
      (fun field => field.1 = some key) = [(some key, value)] := by
    rw [List.filter_map]
    simp only [Function.comp_def, Option.some.injEq, filter_key distinct member, List.map_cons,
      List.map_nil]
  rw [member?, found]

/-- A record gives its fields in the order in which it was written. -/
theorem fields?_record :
    (Json.record members).fields? (members.map Prod.fst) = some (members.map Prod.snd) := by
  have fields : ∀ part ⊆ members,
      (part.map Prod.fst).mapM (member? (members.map fun field => (some field.1, field.2))) =
        some (part.map Prod.snd) := by
    intro part within
    induction part with
    | nil => rfl
    | cons field part inductionHypothesis =>
      obtain ⟨member, partWithin⟩ := List.cons_subset.mp within
      rw [List.map_cons, List.map_cons, List.mapM_cons, member?_record distinct member,
        inductionHypothesis partWithin]
      rfl
  rw [record, fields?, if_pos (by simp)]
  exact fields members (List.Subset.refl members)

end Record

theorem natural?_natural {n : Nat} (fits : n < UInt64.size) : (Json.natural n).natural? = some n :=
  if_pos fits

/-! ## Values that are kept -/

theorem isKept_null : Json.null.IsKept := by
  simp [IsKept, tokens, Token.IsKept]

theorem isKept_text (value : String) : (Json.text value).IsKept := by
  simp [IsKept, Json.text, tokens, Token.IsKept]

theorem isKept_natural {n : Nat} (fits : n < UInt64.size) : (Json.natural n).IsKept :=
  isKept_integer.mpr (Nat.le_sub_one_of_lt fits)

theorem isKept_array_map {α : Type} {write : α → Json} (kept : ∀ item, (write item).IsKept)
    (items : List α) : (Json.array (items.map write)).IsKept := by
  cases items with
  | nil => simp [IsKept, tokens, Token.IsKept]
  | cons item items =>
    refine isKept_array_cons.mpr ⟨kept item, ?_⟩
    induction items with
    | nil => simp [itemTokens, Token.IsKept]
    | cons next items inductionHypothesis =>
      exact isKept_itemTokens_cons.mpr ⟨kept next, inductionHypothesis⟩

theorem isKept_record {members : List (String × Json)}
    (kept : ∀ member ∈ members, member.2.IsKept) : (Json.record members).IsKept := by
  cases members with
  | nil => simp [IsKept, record, tokens, Token.IsKept]
  | cons member members =>
    obtain ⟨memberKept, membersKept⟩ := List.forall_mem_cons.mp kept
    refine isKept_object_cons.mpr ⟨memberKept, ?_⟩
    clear memberKept kept
    induction members with
    | nil => simp [memberTokens, Token.IsKept]
    | cons next members inductionHypothesis =>
      obtain ⟨nextKept, membersKept⟩ := List.forall_mem_cons.mp membersKept
      exact isKept_memberTokens_cons.mpr ⟨nextKept, inductionHypothesis membersKept⟩

end Json

/-! ## Changes -/

theorem Severity.ofName?_name (severity : Severity) : ofName? severity.name = some severity := by
  cases severity <;> rfl

theorem ChangeKind.ofName?_name (kind : ChangeKind) : ofName? kind.name = some kind := by
  cases kind <;> rfl

theorem Side.ofName?_name (side : Side) : ofName? side.name = some side := by
  cases side <;> rfl

namespace Argument

theorem ofJson?_toJson (argument : Argument) : ofJson? argument.toJson = some argument := by
  cases argument with
  | null => rfl
  | number value =>
    rw [toJson, ofJson?, if_pos ⟨value.minValue_le_toInt, value.toInt_le⟩, Int64.ofInt_toInt]
  | text value => rfl

theorem isKept_toJson (argument : Argument) : argument.toJson.IsKept := by
  cases argument with
  | null => exact Json.isKept_null
  | number value =>
    have least := value.le_toInt
    have greatest := value.toInt_lt
    refine Json.isKept_integer.mpr ?_
    rw [Json.Token.maxSignificand]
    omega
  | text value => exact Json.isKept_text value

end Argument

namespace Change

theorem ofJson?_toJson (change : Change) : ofJson? change.toJson = some change := by
  have fields : change.toJson.fields? ["severity", "type", "message_key", "args"] = some _ :=
    Json.fields?_record (show ["severity", "type", "message_key", "args"].Nodup by decide)
  rw [ofJson?, fields]
  simp only [List.map_cons, List.map_nil, Json.text, Json.choice?, Json.text?, Json.items?,
    Severity.ofName?_name, ChangeKind.ofName?_name, mapM_map_eq_some Argument.ofJson?_toJson,
    Option.bind_eq_bind, Option.bind_some, Option.pure_def]

theorem isKept_toJson (change : Change) : change.toJson.IsKept := by
  refine Json.isKept_record ?_
  simp only [List.forall_mem_cons, List.not_mem_nil, false_imp_iff, implies_true, and_true,
    Json.isKept_text, Json.isKept_array_map Argument.isKept_toJson]

end Change

namespace ChangeGroup

theorem ofJson?_toJson {key : String} (apart : key ≠ "diffs") (group : ChangeGroup) :
    ofJson? key (group.toJson key) = some group := by
  have fields : (group.toJson key).fields? [key, "diffs"] = some _ :=
    Json.fields?_record (show [key, "diffs"].Nodup by simpa using apart)
  rw [ofJson?, fields]
  simp only [List.map_cons, List.map_nil, Json.text, Json.text?, Json.items?,
    mapM_map_eq_some Change.ofJson?_toJson, Option.bind_eq_bind, Option.bind_some,
    Option.pure_def]

theorem isKept_toJson (key : String) (group : ChangeGroup) : (group.toJson key).IsKept := by
  refine Json.isKept_record ?_
  simp only [List.forall_mem_cons, List.not_mem_nil, false_imp_iff, implies_true, and_true,
    Json.isKept_text, Json.isKept_array_map Change.isKept_toJson]

end ChangeGroup

namespace SidedFailure

/-- The fields in the order in which they are written. -/
def fields (entry : SidedFailure) : List (String × Json) :=
  [("side", .text entry.side.name), ("class_name", .text entry.failure.className),
    ("path", .text entry.failure.path), ("reason", .text entry.failure.reason),
    ("error_code", .text entry.failure.errorCode)]

theorem member?_fields (entry : SidedFailure) {key : String} {value : Json}
    (member : (key, value) ∈ entry.fields) :
    Json.member? (entry.fields.map fun field => (some field.1, field.2)) key = some value := by
  refine Json.member?_record ?_ member
  change ["side", "class_name", "path", "reason", "error_code"].Nodup
  decide

theorem ofJson?_toJson (entry : SidedFailure) : ofJson? entry.toJson = some entry := by
  have plain : entry.toJson.isPlain maxDepth = true := rfl
  have side := entry.member?_fields (List.mem_of_getElem? (i := 0) rfl)
  have className := entry.member?_fields (List.mem_of_getElem? (i := 1) rfl)
  have path := entry.member?_fields (List.mem_of_getElem? (i := 2) rfl)
  have reason := entry.member?_fields (List.mem_of_getElem? (i := 3) rfl)
  have errorCode := entry.member?_fields (List.mem_of_getElem? (i := 4) rfl)
  change ofJson? (.object (entry.fields.map fun field => (some field.1, field.2))) = _
  rw [ofJson?]
  simp only [side, className, path, reason, errorCode, Json.text, Json.choice?, Json.text?,
    Side.ofName?_name, Option.bind_eq_bind, Option.bind_some, Option.pure_def]
  exact if_pos plain

theorem isKept_toJson (entry : SidedFailure) : entry.toJson.IsKept := by
  refine Json.isKept_record ?_
  simp only [List.forall_mem_cons, List.not_mem_nil, false_imp_iff, implies_true, and_true,
    Json.isKept_text]

end SidedFailure

namespace Summary

/-- Every count fits into 64 bits. -/
structure FitsWords (summary : Summary) : Prop where
  errors : summary.errors < UInt64.size
  warnings : summary.warnings < UInt64.size
  infos : summary.infos < UInt64.size
  classesCompared : summary.classesCompared < UInt64.size
  packagesCompared : summary.packagesCompared < UInt64.size
  failures : summary.failures < UInt64.size

variable {summary : Summary} (fits : summary.FitsWords)

include fits

theorem ofJson?_toJson : ofJson? summary.toJson = some summary := by
  have fields : summary.toJson.fields? ["errors", "warnings", "infos", "classes_compared",
      "packages_compared", "failures"] = some _ :=
    Json.fields?_record (show ["errors", "warnings", "infos", "classes_compared",
      "packages_compared", "failures"].Nodup by decide)
  rw [ofJson?, fields]
  simp only [List.map_cons, List.map_nil, Json.natural?_natural fits.errors,
    Json.natural?_natural fits.warnings, Json.natural?_natural fits.infos,
    Json.natural?_natural fits.classesCompared, Json.natural?_natural fits.packagesCompared,
    Json.natural?_natural fits.failures, Option.bind_eq_bind, Option.bind_some, Option.pure_def]

theorem isKept_toJson : summary.toJson.IsKept := by
  refine Json.isKept_record ?_
  simp only [List.forall_mem_cons, List.not_mem_nil, false_imp_iff, implies_true, and_true,
    Json.isKept_natural fits.errors, Json.isKept_natural fits.warnings,
    Json.isKept_natural fits.infos, Json.isKept_natural fits.classesCompared,
    Json.isKept_natural fits.packagesCompared, Json.isKept_natural fits.failures]

end Summary

/-! ## Reports -/

namespace Report

variable {report : Report} (fits : report.summary.FitsWords)

include fits

theorem ofJson?_toJson : ofJson? report.toJson = some report := by
  have fields : report.toJson.fields? keys = some _ :=
    Json.fields?_record (show keys.Nodup by decide)
  rw [ofJson?, fields]
  simp only [List.map_cons, List.map_nil, Json.text, Json.choice?, Json.text?, Json.items?,
    Severity.ofName?_name,
    mapM_map_eq_some (ChangeGroup.ofJson?_toJson (show "package_name" ≠ "diffs" by decide)),
    mapM_map_eq_some (ChangeGroup.ofJson?_toJson (show "class_name" ≠ "diffs" by decide)),
    mapM_map_eq_some SidedFailure.ofJson?_toJson, Summary.ofJson?_toJson fits,
    Option.bind_eq_bind, Option.bind_some, Option.pure_def]

theorem isKept_toJson : report.toJson.IsKept := by
  refine Json.isKept_record ?_
  simp only [List.forall_mem_cons, List.not_mem_nil, false_imp_iff, implies_true, and_true,
    Json.isKept_text, Json.isKept_array_map (ChangeGroup.isKept_toJson _),
    Json.isKept_array_map SidedFailure.isKept_toJson, Summary.isKept_toJson fits]

end Report

/-- A report is read back from its text and a change from its text without blanks, both equal in
every field. -/
theorem ofText?_jsonText {report : Report} (fits : report.summary.FitsWords) (change : Change) :
    Report.ofText? report.jsonText = some report ∧
      Change.ofText? (change.toJson.render .compact) = some change := by
  constructor
  · have blank : ∀ c ∈ ['\n'], Json.Token.isSpace c = true := List.forall_mem_singleton.mpr rfl
    have read : Json.ofText? report.jsonText = some report.toJson :=
      Json.ofText?_render blank .pretty (Report.isKept_toJson fits)
    rw [Report.ofText?, read]
    exact Report.ofJson?_toJson fits
  · have read := Json.ofText?_render (List.forall_mem_nil fun c => Json.Token.isSpace c = true)
      .compact change.isKept_toJson
    rw [String.ofList_nil, String.append_empty] at read
    rw [Change.ofText?, read]
    exact Change.ofJson?_toJson change

/-- A change with an argument of each kind. -/
def sampleChange : Change :=
  ⟨.warning, .modified, "key \"1\"", [.null, .number Int64.minValue, .text "😀\x01"]⟩

/-- A report whose texts do not all stand in quotes as they are. -/
def sampleReport : Report :=
  { runId := "run \"1\""
    previous := "C:\\old"
    next := "new\n"
    minSeverity := .info
    packages := [⟨"", []⟩]
    classes := [⟨"sample.Grüße", [sampleChange]⟩]
    failures := [⟨.next, ⟨"sample.Broken", "Broken.class", "tab\t", "ERR_INVALID_MODEL"⟩⟩]
    summary :=
      { errors := 0
        warnings := 1
        infos := 0
        classesCompared := UInt64.size - 1
        packagesCompared := 1
        failures := 1 } }

theorem ofText?_jsonText_sample :
    sampleReport.summary.FitsWords ∧
      Report.ofText? sampleReport.jsonText = some sampleReport ∧
        Change.ofText? (sampleChange.toJson.render .compact) = some sampleChange := by
  have fits : sampleReport.summary.FitsWords := by
    constructor <;> decide
  exact ⟨fits, ofText?_jsonText fits sampleChange⟩

end JvmDiff
