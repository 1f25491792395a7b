import JvmDiff.Proofs.ClassFile.Telling
import JvmDiff.Proofs.Snapshot.ClassFiles
import JvmDiff.Proofs.Snapshot.Sources

/-!
# What becomes of the class files

Each class file that is loaded has one of four fates: its class is kept, its class stands for a
package, the file is not read, or a file in front of it declares the class.  The fates of the files
in their order tell what the sources and failures of a snapshot are.
-/

namespace JvmDiff

/-! ## The names of classes that are read -/

namespace ClassFile

/-- A telling that comes to its end ends with a class of a dotted name. -/
def Telling.EndsDotted (told : Telling Class) : Prop :=
  ∀ {assembly next : Assembly} {result : Class}, told assembly = .ok (result, next) →
    Text.IsDotted result.name

namespace Telling

theorem EndsDotted.bind {α : Type} {rest : α → Telling Class}
    (ends : ∀ answer, EndsDotted (rest answer)) (first : Telling α) :
    EndsDotted (first >>= rest) := by
  intro assembly next result told
  obtain ⟨answer, between, _, continued⟩ := exists_of_bind told
  exact ends answer continued

theorem endsDotted_wholeClass (written : WrittenClass) : EndsDotted (wholeClass written) := by
  -- What is told before the end of the class only has to succeed.
  refine EndsDotted.bind (fun _ => EndsDotted.bind (fun _ => EndsDotted.bind (fun _ =>
    EndsDotted.bind (fun _ => EndsDotted.bind (fun _ => ?_) _) _) _) _) _
  intro assembly next result told
  obtain ⟨openClasses⟩ := assembly
  cases openClasses with
  | nil => cases told
  | cons c outer =>
      cases told
      exact Class.Declared.isDotted_name _

end Telling

theorem isDotted_name_of_readClass {bytes : List UInt8} {c : Class}
    (reads : readClass bytes = .ok c) : Text.IsDotted c.name := by
  obtain ⟨written, last, _, told⟩ := told_of_readClass reads
  exact Telling.endsDotted_wholeClass written told

end ClassFile

/-! ## Fates -/

/-- What becomes of a class file. -/
inductive Fate where
  /-- The class counts. -/
  | kept (c : Class)
  /-- The class stands for its package. -/
  | packageInfo (info : Class)
  /-- No class can be read. -/
  | unread (failure : LoadFailure)
  /-- A file in front declares the class. -/
  | redeclared (failure : LoadFailure)

namespace Fate

def kept? : Fate → Option Class
  | .kept c => some c
  | _ => none

def packageInfo? : Fate → Option Class
  | .packageInfo info => some info
  | _ => none

def unread? : Fate → Option LoadFailure
  | .unread failure => some failure
  | _ => none

def redeclared? : Fate → Option LoadFailure
  | .redeclared failure => some failure
  | _ => none

def failure? : Fate → Option LoadFailure
  | .unread failure | .redeclared failure => some failure
  | _ => none

end Fate

namespace ClassFileEntry

/-- The class in the file, if it can be read. -/
def class? (file : ClassFileEntry) : Option Class :=
  file.bytes.toOption.bind fun bytes => (ClassFile.readClass bytes).toOption

/-- The file declares a class of the name. -/
def declares (name : String) (file : ClassFileEntry) : Bool :=
  file.class?.any fun c => !c.isPackageInfo && c.name = name

/-- The first of the files that declares a class of the name. -/
def declarer? (files : List ClassFileEntry) (name : String) : Option ClassFileEntry :=
  files.find? (declares name)

/-- What becomes of a file behind others. -/
def fate (root : String) (inFront : List ClassFileEntry) (file : ClassFileEntry) : Fate :=
  match file.bytes with
  | .error fault => .unread (Loading.failure root file.path fault.message ProblemKind.io.code)
  | .ok bytes =>
      match ClassFile.readClass bytes with
      | .error problem =>
          .unread (Loading.failure root file.path (Loading.reason problem) problem.kind.code)
      | .ok c =>
          if c.isPackageInfo then .packageInfo c
          else
            match declarer? inFront c.name with
            | none => .kept c
            | some first =>
                .redeclared (Redefinition.failure root
                  ⟨c.name, file.path.display root, first.path.display root⟩)

/-- What becomes of files behind others, one after another. -/
def fatesAfter (root : String) (inFront : List ClassFileEntry) :
    List ClassFileEntry → List Fate
  | [] => []
  | file :: files => fate root inFront file :: fatesAfter root (inFront ++ [file]) files

theorem fatesAfter_append (root : String) (inFront files more : List ClassFileEntry) :
    fatesAfter root inFront (files ++ more) =
      fatesAfter root inFront files ++ fatesAfter root (inFront ++ files) more := by
  induction files generalizing inFront with
  | nil => rw [List.append_nil]; rfl
  | cons file files inductionHypothesis =>
      rw [List.cons_append, fatesAfter, fatesAfter, inductionHypothesis, List.append_assoc,
        List.singleton_append, List.cons_append]

theorem isDotted_name_of_class? {file : ClassFileEntry} {c : Class}
    (holds : file.class? = some c) : Text.IsDotted c.name := by
  obtain ⟨bytes, _, reads⟩ := Option.bind_eq_some_iff.mp holds
  cases known : ClassFile.readClass bytes with
  | error problem => rw [known] at reads; cases reads
  | ok result =>
      rw [known] at reads
      cases reads
      exact ClassFile.isDotted_name_of_readClass known

/-! ### Loading a file -/

section Outcome

variable (root : String) (inFront : List ClassFileEntry) (file : ClassFileEntry)

/-- A file is a failure, or has a class that it stands for as a source. -/
theorem outcome_cases :
    (∃ failure, Loading.loadEntry root file = .error failure ∧ file.class? = none ∧
      fate root inFront file = .unread failure ∧ failure.path = file.path.display root) ∨
    ∃ c, Loading.loadEntry root file = .ok ⟨file.path.display root, c⟩ ∧ file.class? = some c ∧
      fate root inFront file =
        if c.isPackageInfo then .packageInfo c
        else
          match declarer? inFront c.name with
          | none => .kept c
          | some first =>
              .redeclared (Redefinition.failure root
                ⟨c.name, file.path.display root, first.path.display root⟩) := by
  obtain ⟨path, outcome⟩ := file
  cases outcome with
  | error fault => exact .inl ⟨_, rfl, rfl, rfl, rfl⟩
  | ok bytes =>
    simp only [Loading.loadEntry, class?, fate]
    cases reads : ClassFile.readClass bytes with
    | error problem => exact .inl ⟨_, rfl, by simp [Except.toOption, reads], rfl, rfl⟩
    | ok c => exact .inr ⟨c, rfl, by simp [Except.toOption, reads], rfl⟩

end Outcome

end ClassFileEntry

/-! ## From outcomes to fates -/

section Tally

open Snapshot ClassFileEntry

/-- The sources among the outcomes of loading files. -/
def loadedOf (outcomes : List (Except LoadFailure Source)) : List Source :=
  outcomes.filterMap fun outcome => outcome.toOption

/-- The failures among the outcomes of loading files. -/
def failedOf (outcomes : List (Except LoadFailure Source)) : List LoadFailure :=
  outcomes.filterMap fun outcome =>
    match outcome with
    | .error failure => some failure
    | .ok _ => none

/-- What the outcomes of some files come to behind earlier sources, told by the fates of the
files. -/
structure Tally (root : String) (earlier : List Source)
    (outcomes : List (Except LoadFailure Source)) (fates : List Fate) : Prop where
  kept : (definitions earlier (ordinary (loadedOf outcomes))).map Source.content =
    fates.filterMap Fate.kept?
  packageInfos : (packageInfos (loadedOf outcomes)).map Source.content =
    fates.filterMap Fate.packageInfo?
  unread : failedOf outcomes = fates.filterMap Fate.unread?
  redeclared : (redefinitionsAfter earlier (ordinary (loadedOf outcomes))).map
    (Redefinition.failure root) = fates.filterMap Fate.redeclared?

namespace Tally

variable {root : String} {earlier : List Source} {outcomes : List (Except LoadFailure Source)}
  {fates : List Fate} {source first : Source}

theorem cons_unread (tally : Tally root earlier outcomes fates) (failure : LoadFailure) :
    Tally root earlier (.error failure :: outcomes) (.unread failure :: fates) :=
  { tally with unread := congrArg (failure :: ·) tally.unread }

theorem cons_packageInfo (tally : Tally root earlier outcomes fates)
    (isInfo : source.content.isPackageInfo = true) :
    Tally root earlier (.ok source :: outcomes) (.packageInfo source.content :: fates) := by
  have skipped : ordinary (loadedOf (.ok source :: outcomes)) = ordinary (loadedOf outcomes) :=
    List.filter_cons_of_neg (by simp [isInfo])
  have taken : Snapshot.packageInfos (loadedOf (.ok source :: outcomes)) =
      source :: Snapshot.packageInfos (loadedOf outcomes) :=
    List.filter_cons_of_pos isInfo
  constructor
  case kept => rw [skipped]; exact tally.kept
  case packageInfos => rw [taken]; exact congrArg (source.content :: ·) tally.packageInfos
  case unread => exact tally.unread
  case redeclared => rw [skipped]; exact tally.redeclared

theorem ordinary_cons (notInfo : source.content.isPackageInfo = false) :
    ordinary (loadedOf (.ok source :: outcomes)) = source :: ordinary (loadedOf outcomes) :=
  List.filter_cons_of_pos (by simp [notInfo])

theorem packageInfos_cons (notInfo : source.content.isPackageInfo = false) :
    Snapshot.packageInfos (loadedOf (.ok source :: outcomes)) =
      Snapshot.packageInfos (loadedOf outcomes) :=
  List.filter_cons_of_neg (by simp [notInfo])

theorem any_eq_isSome_firstSource? (sources : List Source) (name : String) :
    (sources.any fun other => other.content.name = name) = (firstSource? sources name).isSome := by
  rw [Bool.eq_iff_iff, List.any_eq_true, firstSource?, List.find?_isSome]

theorem cons_kept (tally : Tally root (source :: earlier) outcomes fates)
    (notInfo : source.content.isPackageInfo = false)
    (new : firstSource? earlier source.content.name = none) :
    Tally root earlier (.ok source :: outcomes) (.kept source.content :: fates) := by
  constructor
  case kept =>
    rw [ordinary_cons notInfo, definitions, any_eq_isSome_firstSource?, new]
    exact congrArg (source.content :: ·) tally.kept
  case packageInfos => rw [packageInfos_cons notInfo]; exact tally.packageInfos
  case unread => exact tally.unread
  case redeclared =>
    rw [ordinary_cons notInfo, redefinitionsAfter, redefinition?, new]
    exact tally.redeclared

theorem cons_redeclared (tally : Tally root earlier outcomes fates)
    (notInfo : source.content.isPackageInfo = false)
    (again : firstSource? earlier source.content.name = some first) :
    Tally root earlier (.ok source :: outcomes)
      (.redeclared (Redefinition.failure root
        ⟨source.content.name, source.path, first.path⟩) :: fates) := by
  constructor
  case kept =>
    rw [ordinary_cons notInfo, definitions, any_eq_isSome_firstSource?, again]
    exact tally.kept
  case packageInfos => rw [packageInfos_cons notInfo]; exact tally.packageInfos
  case unread => exact tally.unread
  case redeclared =>
    rw [ordinary_cons notInfo, redefinitionsAfter, redefinition?, again]
    exact congrArg (_ :: ·) tally.redeclared

end Tally

/-- The earlier sources have, for each class, the one from the first file in front that declares
it. -/
def Tracks (root : String) (inFront : List ClassFileEntry) (earlier : List Source) : Prop :=
  ∀ name, (firstSource? earlier name).map Source.path =
    (declarer? inFront name).map fun first => first.path.display root

namespace Tracks

variable {root : String} {inFront : List ClassFileEntry} {earlier : List Source}
  {file : ClassFileEntry} {c : Class}

theorem declares_eq (holds : file.class? = some c) (notInfo : c.isPackageInfo = false)
    (name : String) : file.declares name = decide (c.name = name) := by
  rw [declares, holds, Option.any_some, notInfo, Bool.not_false, Bool.true_and]

theorem declarer?_concat (name : String) :
    declarer? (inFront ++ [file]) name =
      (declarer? inFront name).or (if file.declares name then some file else none) := by
  rw [declarer?, List.find?_append, List.find?_singleton]
  rfl

/-- Nothing changes with a file that declares nothing new. -/
theorem pass (tracks : Tracks root inFront earlier)
    (nothingNew : ∀ name, file.declares name = true → (declarer? inFront name).isSome = true) :
    Tracks root (inFront ++ [file]) earlier := by
  intro name
  rw [tracks name, declarer?_concat]
  cases known : declarer? inFront name with
  | some first => rfl
  | none =>
      have notDeclared : file.declares name ≠ true := by
        intro declared
        have some := nothingNew name declared
        rw [known] at some
        cases some
      rw [if_neg notDeclared]
      rfl

/-- A class that is declared for the first time has its file as the first one. -/
theorem define (tracks : Tracks root inFront earlier) (holds : file.class? = some c)
    (notInfo : c.isPackageInfo = false) (new : declarer? inFront c.name = none) :
    Tracks root (inFront ++ [file]) (⟨file.path.display root, c⟩ :: earlier) := by
  intro name
  rw [declarer?_concat, declares_eq holds notInfo]
  by_cases same : c.name = name
  · subst same
    rw [firstSource?, List.find?_cons_of_pos (by simp), new]
    simp
  · rw [firstSource?, List.find?_cons_of_neg (by simpa using same), decide_eq_false same]
    rw [if_neg Bool.false_ne_true, Option.or_none]
    exact tracks name

theorem tally (tracks : Tracks root inFront earlier) (files : List ClassFileEntry) :
    Tally root earlier (files.map (Loading.loadEntry root)) (fatesAfter root inFront files) := by
  induction files generalizing inFront earlier with
  | nil => exact ⟨rfl, rfl, rfl, rfl⟩
  | cons file files inductionHypothesis =>
    rw [List.map_cons, fatesAfter]
    rcases outcome_cases root inFront file with
      ⟨failure, outcome, holds, becomes, _⟩ | ⟨c, outcome, holds, becomes⟩
    · -- Without a class no name is declared.
      rw [outcome, becomes]
      apply Tally.cons_unread
      apply inductionHypothesis (tracks.pass _)
      intro name declared
      rw [declares, holds] at declared
      cases declared
    rw [outcome, becomes]
    by_cases isInfo : c.isPackageInfo = true
    · rw [if_pos isInfo]
      refine Tally.cons_packageInfo ?_ isInfo
      apply inductionHypothesis (tracks.pass _)
      intro name declared
      rw [declares, holds, Option.any_some, isInfo] at declared
      cases declared
    rw [if_neg isInfo]
    have notInfo := Bool.eq_false_iff.mpr isInfo
    -- The earlier sources have the name just when a file in front declares it.
    have known := tracks c.name
    cases declarer : declarer? inFront c.name with
    | none =>
        rw [declarer, Option.map_none, Option.map_eq_none_iff] at known
        refine Tally.cons_kept ?_ notInfo known
        exact inductionHypothesis (tracks.define holds notInfo declarer)
    | some first =>
        rw [declarer, Option.map_some, Option.map_eq_some_iff] at known
        obtain ⟨source, again, samePath⟩ := known
        dsimp only
        rw [← samePath]
        refine Tally.cons_redeclared ?_ notInfo again
        apply inductionHypothesis (tracks.pass _)
        intro name declared
        rw [declares_eq holds notInfo, decide_eq_true_eq] at declared
        rw [← declared, declarer]
        rfl

end Tracks

theorem tally_fates (root : String) (files : List ClassFileEntry) :
    Tally root [] (files.map (Loading.loadEntry root)) (fatesAfter root [] files) :=
  Tracks.tally (fun _ => rfl) files

end Tally

/-- What is loaded of the class files that the filter admits. -/
def Loaded.ofEntries (root : String) (filter : ClassFilter) (entries : List ClassFileEntry) :
    Loaded where
  toLoading := Loading.ofEntries root filter entries
  isDotted := by
    intro source member
    obtain ⟨outcome, outcomeMember, loaded⟩ := List.mem_filterMap.mp member
    obtain ⟨file, _, rfl⟩ := List.mem_map.mp outcomeMember
    rcases ClassFileEntry.outcome_cases root [] file with ⟨_, outcome, _⟩ | ⟨c, outcome, holds, _⟩
    · rw [outcome] at loaded
      cases loaded
    · rw [outcome] at loaded
      cases loaded
      exact ClassFileEntry.isDotted_name_of_class? holds

end JvmDiff
