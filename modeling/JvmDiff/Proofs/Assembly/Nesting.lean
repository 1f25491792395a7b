import JvmDiff.Proofs.Assembly.Transcript
import Mathlib.Data.List.Infix

/-!
# Classes inside classes

An event concerns the innermost open class only, so what happens between the beginning of a class
and its end does not depend on the classes around it, and leaves them alone.  A run may therefore be
read without the classes that were begun and ended in it.
-/

namespace JvmDiff.Assembly

/-! ## Runs one after another -/

theorem after_append (assembly : Assembly) (first second : List Event) :
    assembly.after (first ++ second) = (assembly.after first).after second :=
  List.foldl_append

theorem transcript_append (assembly : Assembly) (first second : List Event) :
    assembly.transcript (first ++ second) =
      assembly.transcript first ++ (assembly.after first).transcript second := by
  induction first generalizing assembly with
  | nil => rfl
  | cons event first inductionHypothesis =>
      rw [List.cons_append, transcript, inductionHypothesis]
      rfl

/-! ## Frames -/

/-- The open classes of one assembly, begun inside those of another. -/
def inside (inner outer : Assembly) : Assembly :=
  ⟨inner.openClasses ++ outer.openClasses⟩

theorem depth_inside (inner outer : Assembly) :
    (inner.inside outer).depth = inner.depth + outer.depth :=
  List.length_append

theorem step_beginClass_inside (inner outer : Assembly) (header : ClassHeader) :
    (inner.inside outer).step (.beginClass header) =
      ((inner.step (.beginClass header)).1, (inner.step (.beginClass header)).2.inside outer) := by
  simp only [step, inside]
  cases openClass header with
  | error error => rfl
  | ok c => rfl

/-- As long as a class is open inside, events do not reach what is around. -/
theorem step_inside {inner : Assembly} (isOpen : 0 < inner.depth) (outer : Assembly)
    (event : Event) :
    (inner.inside outer).step event =
      ((inner.step event).1, (inner.step event).2.inside outer) := by
  obtain ⟨_ | ⟨c, around⟩⟩ := inner
  · exact absurd isOpen (Nat.lt_irrefl 0)
  cases event with
  | beginClass header => exact step_beginClass_inside _ outer header
  | within event =>
      simp only [step, inside, List.cons_append]
      cases c.accept event with
      | error error => rfl
      | ok accepted => rfl
  | endClass => rfl

/-- A whole run with a class open inside at any time. -/
theorem run_inside {inner outer : Assembly} {events : List Event}
    (staysOpen : ∀ front, front <+: events →
      outer.depth < ((inner.inside outer).after front).depth) :
    (inner.inside outer).after events = (inner.after events).inside outer ∧
      (inner.inside outer).transcript events = inner.transcript events := by
  -- On the events; what is open inside after the first is the start of the rest.
  induction events generalizing inner with
  | nil => exact ⟨rfl, rfl⟩
  | cons event events inductionHypothesis =>
      have isOpen : 0 < inner.depth := by
        have now := staysOpen [] List.nil_prefix
        rw [after, List.foldl_nil, depth_inside] at now
        omega
      have stepped := step_inside isOpen outer event
      have laterOpen : ∀ front, front <+: events →
          outer.depth < (((inner.step event).2.inside outer).after front).depth := by
        intro front before
        have known := staysOpen (event :: front) (List.cons_prefix_cons.mpr ⟨rfl, before⟩)
        rwa [after, List.foldl_cons, stepped] at known
      have later := inductionHypothesis laterOpen
      constructor
      · rw [after, List.foldl_cons, stepped]
        exact later.1
      · rw [transcript, transcript, stepped, later.2]

/-! ## From the beginning of a class to its end -/

/-- The events lead from the beginning of a class to its end: the class begins, after
each of the events up to the last it is still open, and the last one ends it. -/
structure Encloses (outer : Assembly) (header : ClassHeader) (events : List Event) : Prop where
  begins : (outer.step (.beginClass header)).1 = .ok .done
  staysOpen : ∀ front, front <+: events →
    outer.depth < (outer.after (.beginClass header :: front)).depth
  innermost : (outer.after (.beginClass header :: events)).depth = outer.depth + 1

/-- The events of a class with its beginning and its end. -/
def segment (header : ClassHeader) (events : List Event) : List Event :=
  .beginClass header :: events ++ [.endClass]

namespace Encloses

variable {outer : Assembly} {header : ClassHeader} {events : List Event}

/-- What the events do around an assembly is what they do on their own. -/
theorem run (encloses : Encloses outer header events) :
    outer.after (.beginClass header :: events) =
        (({} : Assembly).after (.beginClass header :: events)).inside outer ∧
      outer.transcript (.beginClass header :: events) =
        ({} : Assembly).transcript (.beginClass header :: events) := by
  have started := step_beginClass_inside {} outer header
  change outer.step (.beginClass header) = _ at started
  have laterOpen : ∀ front, front <+: events →
      outer.depth <
        (((({} : Assembly).step (.beginClass header)).2.inside outer).after front).depth := by
    intro front before
    have known := encloses.staysOpen front before
    rwa [after, List.foldl_cons, started] at known
  have later := run_inside laterOpen
  constructor
  · rw [after, List.foldl_cons, started]
    exact later.1
  · rw [transcript, transcript, started, later.2]

/-- The class that the events fill is the only one they leave open. -/
theorem exists_last (encloses : Encloses outer header events) :
    ∃ last, ({} : Assembly).after (.beginClass header :: events) = ⟨[last]⟩ := by
  have one := encloses.innermost
  rw [encloses.run.1, depth_inside, Nat.add_comm] at one
  obtain ⟨last, only⟩ := List.length_eq_one_iff.mp (Nat.add_left_cancel one)
  exact ⟨last, congrArg Assembly.mk only⟩

theorem after_segment (encloses : Encloses outer header events) :
    outer.after (segment header events) = outer := by
  obtain ⟨last, only⟩ := encloses.exists_last
  rw [segment, after_append, encloses.run.1, only]
  rfl

theorem transcript_segment (encloses : Encloses outer header events) :
    outer.transcript (segment header events) =
      ({} : Assembly).transcript (segment header events) := by
  obtain ⟨last, only⟩ := encloses.exists_last
  rw [segment, transcript_append, transcript_append, encloses.run.1, encloses.run.2, only]
  rfl

theorem getLast?_transcript (encloses : Encloses outer header events) :
    ∃ found, (outer.transcript (segment header events)).getLast? =
      some ⟨.endClass, .ok (.ended found)⟩ := by
  obtain ⟨last, only⟩ := encloses.exists_last
  refine ⟨last.close, ?_⟩
  rw [encloses.transcript_segment, segment, transcript_append, only]
  exact List.getLast?_concat

end Encloses

/-! ## Runs without the classes ended in them -/

/-- Exchanges that remain of a run when some classes that were begun and ended in it
are passed over, each from its beginning to its end. -/
inductive Remaining : Assembly → List Event → List Exchange → Prop where
  | nil (assembly : Assembly) : Remaining assembly [] []
  | keep {assembly : Assembly} {event : Event} {events : List Event} {kept : List Exchange} :
      Remaining (assembly.step event).2 events kept →
      Remaining assembly (event :: events) (⟨event, (assembly.step event).1⟩ :: kept)
  | passOver {assembly : Assembly} {header : ClassHeader} {inner events : List Event}
      {kept : List Exchange} :
      Encloses assembly header inner →
      Remaining (assembly.after (segment header inner)) events kept →
      Remaining assembly (segment header inner ++ events) kept

/-- The events that remain are answered as they were in the whole run, and lead to
where it leads. -/
theorem Remaining.replay {assembly : Assembly} {events : List Event} {kept : List Exchange}
    (remaining : Remaining assembly events kept) :
    assembly.transcript (kept.map Exchange.event) = kept ∧
      assembly.after (kept.map Exchange.event) = assembly.after events := by
  induction remaining with
  | nil => exact ⟨rfl, rfl⟩
  | keep _ inductionHypothesis =>
      rw [List.map_cons, transcript, inductionHypothesis.1]
      exact ⟨rfl, inductionHypothesis.2⟩
  | passOver encloses _ inductionHypothesis =>
      rw [encloses.after_segment] at inductionHypothesis
      rw [after_append, encloses.after_segment]
      exact inductionHypothesis

/-- A class that is begun and ended leaves all classes around it as they were, and is
answered as if there were none.  So passing over such classes changes no other answer,
among them the classes that the ends around them return. -/
theorem enclosed_classes_apart (assembly : Assembly) :
    (∀ header events, Encloses assembly header events →
      assembly.after (segment header events) = assembly ∧
        assembly.transcript (segment header events) =
          ({} : Assembly).transcript (segment header events) ∧
        ∃ found, (assembly.transcript (segment header events)).getLast? =
          some ⟨.endClass, .ok (.ended found)⟩) ∧
      ∀ events kept, Remaining assembly events kept →
        assembly.transcript (kept.map Exchange.event) = kept ∧
          assembly.after (kept.map Exchange.event) = assembly.after events := by
  constructor
  · intro header events encloses
    exact ⟨encloses.after_segment, encloses.transcript_segment, encloses.getLast?_transcript⟩
  · intro events kept remaining
    exact remaining.replay

/-- A class with a field, still open. -/
def openBox : Assembly :=
  ({} : Assembly).after
    [.beginClass { name := "org/Box" }, .within (.field { name := "size", descriptor := "I" })]

/-- What is told of a part of the class: a use of a handle too early, a class inside the
part, a class that cannot begin, and a field. -/
def partEvents : List Event :=
  [.within (.annotationUse (.field 0) "LEarly;"),
    .beginClass { name := "org/Box$Part$Core" },
    .within (.method { name := "run", descriptor := "()V" }),
    .endClass,
    .beginClass { name := " " },
    .within (.field { name := "size", descriptor := "J" })]

theorem enclosed_classes_apart_box :
    Encloses openBox { name := "org/Box$Part" } partEvents ∧
      Remaining openBox (segment { name := "org/Box$Part" } partEvents ++ [.endClass])
        [⟨.endClass, (openBox.step .endClass).1⟩] ∧
      openBox.after (segment { name := "org/Box$Part" } partEvents) = openBox ∧
      openBox.transcript [.endClass] = [⟨.endClass, (openBox.step .endClass).1⟩] ∧
      openBox.after [.endClass] =
        openBox.after (segment { name := "org/Box$Part" } partEvents ++ [.endClass]) := by
  have staysOpen : ∀ front ∈ partEvents.inits,
      openBox.depth < (openBox.after (.beginClass { name := "org/Box$Part" } :: front)).depth := by
    decide +kernel
  have encloses : Encloses openBox { name := "org/Box$Part" } partEvents :=
    { begins := rfl
      staysOpen := fun front before => staysOpen front ((List.mem_inits front _).mpr before)
      innermost := by decide +kernel }
  have remaining : Remaining openBox (segment { name := "org/Box$Part" } partEvents ++ [.endClass])
      [⟨.endClass, (openBox.step .endClass).1⟩] := by
    refine .passOver encloses ?_
    rw [encloses.after_segment]
    exact .keep (.nil _)
  have apart := enclosed_classes_apart openBox
  exact ⟨encloses, remaining, (apart.1 _ _ encloses).1, apart.2 _ _ remaining⟩

end JvmDiff.Assembly
