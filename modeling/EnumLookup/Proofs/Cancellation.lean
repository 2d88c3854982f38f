import EnumLookup.Cancellation
import Mathlib.Data.List.Chain

/-!
Cancellation sources. A combination is requested when a flag or a deadline in it is, however deep it
is nested there. While the clock does not go back, no source that was requested ceases to be.
-/
namespace EnumLookup

namespace CancelSource

/-- Flags and deadlines, which are judged by the signals alone. -/
inductive IsSimple : CancelSource → Prop
  | token (flag : Nat) : IsSimple (token flag)
  | deadline (instant : Binary64) : IsSimple (deadline instant)

/-- A source is part of itself, and of every combination of which one source has it as a part. -/
inductive PartOf (part : CancelSource) : CancelSource → Prop
  | self : PartOf part part
  | inside {source : CancelSource} {sources : List CancelSource} (member : source ∈ sources)
      (inner : PartOf part source) : PartOf part (anyOf sources)

/-- Some flag or deadline in the source is requested. -/
def HasRequestedPart (signals : Signals) (source : CancelSource) : Prop :=
  ∃ part : CancelSource, part.IsSimple ∧ part.PartOf source ∧ part.isRequested signals = true

variable {signals : Signals} {source part : CancelSource} {sources : List CancelSource}

theorem isAnyRequested_iff : isAnyRequested signals sources = true ↔
    ∃ source ∈ sources, source.isRequested signals = true := by
  induction sources with
  | nil => simp [isAnyRequested]
  | cons first rest ih => simp [isAnyRequested, ih]

theorem token_isRequested {flag : Nat} :
    (token flag).isRequested signals = true ↔ flag ∈ signals.raised := by
  simp [isRequested]

theorem deadline_isRequested {instant : Binary64} :
    (deadline instant).isRequested signals = true ↔ instant.le signals.now = true := by
  simp [isRequested]

theorem anyOf_isRequested : (anyOf sources).isRequested signals = true ↔
    ∃ source ∈ sources, source.isRequested signals = true := by
  rw [isRequested, isAnyRequested_iff]

theorem PartOf.isRequested (partOf : part.PartOf source)
    (requested : part.isRequested signals = true) : source.isRequested signals = true := by
  induction partOf with
  | self => exact requested
  | inside member _ ih => exact anyOf_isRequested.mpr ⟨_, member, ih⟩

theorem isRequested_iff :
    source.isRequested signals = true ↔ source.HasRequestedPart signals := by
  refine ⟨?_, fun ⟨_, _, partOf, requested⟩ => partOf.isRequested requested⟩
  refine isRequested.induct
    (fun source => source.isRequested signals = true → source.HasRequestedPart signals)
    (fun sources => isAnyRequested signals sources = true →
      ∃ source ∈ sources, HasRequestedPart signals source) ?_ ?_ ?_ ?_ ?_ source
  · intro flag requested
    exact ⟨_, .token flag, .self, requested⟩
  · intro instant requested
    exact ⟨_, .deadline instant, .self, requested⟩
  · intro sources inSources requested
    rw [CancelSource.isRequested] at requested
    obtain ⟨source, member, part, simple, partOf, requested⟩ := inSources requested
    exact ⟨part, simple, .inside member partOf, requested⟩
  · intro requested
    cases requested
  · intro first rest inFirst inRest requested
    rw [isAnyRequested, Bool.or_eq_true] at requested
    rcases requested with requested | requested
    · exact ⟨first, List.mem_cons_self .., inFirst requested⟩
    · obtain ⟨source, member, found⟩ := inRest requested
      exact ⟨source, List.mem_cons_of_mem _ member, found⟩

/-- A combination of sources some of which are missing. -/
theorem composite_isRequested {sources : List (Option CancelSource)} :
    (composite sources).isRequested signals = true ↔
      ∃ source, some source ∈ sources ∧ HasRequestedPart signals source := by
  rw [composite, anyOf_isRequested]
  simp only [List.mem_filterMap, id_eq, exists_eq_right, ← isRequested_iff]

end CancelSource

namespace Signals

/-- No flag is lowered, and what the clock has reached it has still reached. -/
structure Follows (later earlier : Signals) : Prop where
  raised : ∀ flag ∈ earlier.raised, flag ∈ later.raised
  reached : ∀ instant, Binary64.le instant earlier.now = true →
    Binary64.le instant later.now = true

variable {signals later middle earlier : Signals} {step : SignalStep} {steps : List SignalStep}

theorem Follows.refl (signals : Signals) : signals.Follows signals :=
  ⟨fun _ => id, fun _ => id⟩

theorem Follows.trans (late : later.Follows middle) (early : middle.Follows earlier) :
    later.Follows earlier :=
  ⟨fun flag raised => late.raised flag (early.raised flag raised),
    fun instant reached => late.reached instant (early.reached instant reached)⟩

/-- What is requested once stays so. -/
theorem Follows.isRequested (follows : later.Follows earlier) {source : CancelSource}
    (requested : source.isRequested earlier = true) : source.isRequested later = true := by
  obtain ⟨part, simple, partOf, requested⟩ := CancelSource.isRequested_iff.mp requested
  apply partOf.isRequested
  cases simple with
  | token flag =>
    rw [CancelSource.token_isRequested] at requested ⊢
    exact follows.raised flag requested
  | deadline instant =>
    rw [CancelSource.deadline_isRequested] at requested ⊢
    exact follows.reached instant requested

def run (signals : Signals) (steps : List SignalStep) : Signals := steps.foldl Signals.step signals

def readings (steps : List SignalStep) : List Binary64 := steps.filterMap (·.clock)

def Forward (signals : Signals) (steps : List SignalStep) : Prop :=
  (signals.now :: readings steps).IsChain fun before after => before.le after = true

instance (signals : Signals) (steps : List SignalStep) : Decidable (Forward signals steps) :=
  inferInstanceAs (Decidable (List.IsChain _ _))

theorem run_append (signals : Signals) (front back : List SignalStep) :
    signals.run (front ++ back) = (signals.run front).run back := List.foldl_append

theorem forward_cons : Forward signals (step :: steps) ↔
    (∀ reading ∈ step.clock, signals.now.le reading = true) ∧
      Forward (signals.step step) steps := by
  unfold Forward readings Signals.step
  cases clock : step.clock with
  | none => simp [clock]
  | some reading => simp [clock]

theorem step_follows (forward : ∀ reading ∈ step.clock, signals.now.le reading = true) :
    (signals.step step).Follows signals := by
  refine ⟨fun flag raised => List.mem_append_right _ raised, fun instant reached => ?_⟩
  unfold Signals.step
  cases clock : step.clock with
  | none => exact reached
  | some reading => exact Binary64.le_trans reached (forward reading clock)

theorem run_follows (forward : Forward signals steps) : (signals.run steps).Follows signals := by
  induction steps generalizing signals with
  | nil => exact .refl signals
  | cons step rest ih =>
    obtain ⟨first, others⟩ := forward_cons.mp forward
    exact (ih others).trans (step_follows first)

theorem Forward.behind {front back : List SignalStep} (forward : Forward signals (front ++ back)) :
    Forward (signals.run front) back := by
  induction front generalizing signals with
  | nil => exact forward
  | cons step rest ih => exact ih (forward_cons.mp forward).2

theorem mem_raised_run {flag : Nat} : flag ∈ (signals.run steps).raised ↔
    flag ∈ signals.raised ∨ ∃ step ∈ steps, step.raise = some flag := by
  induction steps generalizing signals with
  | nil => simp [run]
  | cons first rest ih =>
    have step : flag ∈ (signals.step first).raised ↔
        first.raise = some flag ∨ flag ∈ signals.raised := by
      simp [Signals.step]
    rw [run, List.foldl_cons, ← run, ih, step, List.exists_mem_cons_iff]
    tauto

theorem now_run : (signals.run steps).now = (readings steps).getLast?.getD signals.now := by
  induction steps generalizing signals with
  | nil => rfl
  | cons first rest ih =>
    rw [run, List.foldl_cons, ← run, ih, Signals.step]
    cases clock : first.clock with
    | none => simp [readings, clock]
    | some reading => simp [readings, clock, List.getLast?_cons]

end Signals

namespace CancelSource

open Signals

/-- A flag is requested once a step has raised it, a deadline once the clock has reached it, and a
combination of sources, some of which may be missing, when a flag or deadline in it is. As long as
the clock does not go back, a source that is requested after some steps is so after all later
ones. -/
theorem requested_for_good (signals : Signals) (steps : List SignalStep) :
    (∀ flag, (token flag).isRequested (signals.run steps) = true ↔
      flag ∈ signals.raised ∨ ∃ step ∈ steps, step.raise = some flag) ∧
    (∀ instant, (deadline instant).isRequested (signals.run steps) = true ↔
      instant.le ((readings steps).getLast?.getD signals.now) = true) ∧
    (∀ sources, (composite sources).isRequested (signals.run steps) = true ↔
      ∃ source, some source ∈ sources ∧ HasRequestedPart (signals.run steps) source) ∧
    (Forward signals steps → ∀ earlier later, steps = earlier ++ later → ∀ source : CancelSource,
      source.isRequested (signals.run earlier) = true →
        source.isRequested (signals.run steps) = true) := by
  refine ⟨fun flag => ?_, fun instant => ?_, fun sources => composite_isRequested, ?_⟩
  · rw [token_isRequested, mem_raised_run]
  · rw [deadline_isRequested, now_run]
  · rintro forward earlier later rfl source requested
    rw [run_append]
    exact (run_follows forward.behind).isRequested requested

/-- A flag within two combinations, beside a deadline and a source that is missing. -/
def nestedSource : CancelSource :=
  composite [none, some (composite [some (deadline (.ofNat 5)), some (token 0)])]

/-- The flag is raised while the deadline is still to come. -/
theorem requested_for_good_nested :
    let start : Signals := ⟨[], .ofNat 1⟩
    let raised : List SignalStep := [⟨none, some (.ofNat 2)⟩, ⟨some 0, none⟩]
    let later : List SignalStep := [⟨none, some (.ofNat 3)⟩]
    Forward start (raised ++ later) ∧ nestedSource.isRequested start = false ∧
      nestedSource.isRequested (start.run raised) = true ∧
      nestedSource.isRequested (start.run (raised ++ later)) = true := by
  intro start raised later
  have forward : Forward start (raised ++ later) := by decide +kernel
  have requested : nestedSource.isRequested (start.run raised) = true := by decide +kernel
  exact ⟨forward, by decide +kernel, requested,
    (requested_for_good start (raised ++ later)).2.2.2 forward raised later rfl _ requested⟩

end CancelSource

end EnumLookup
