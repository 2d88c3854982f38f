import EnumLookup.Generation.Result
import EnumLookup.Proofs.Generation.Agreement

/-!
Runs that nobody cancels. When the answers of a host do not depend on its state, such a run is
determined: it marks the nodes that look like enums and have a decorator that resolves to the
marker, keeps one of each key, and describes the types of those that have one.
-/
namespace EnumLookup.Generation

variable {ν σ α β : Type} {keeps : σ → Prop}

/-- What is answered about nodes. An error counts as no answer. -/
structure Answers (ν : Type) where
  annotation : ν → Nat → Option String
  declared : ν → Option EnumType

/-- From states of some kind a host gives these answers, and stays in such states. -/
structure Host.Gives (host : Host ν σ) (keeps : σ → Prop) (answers : Answers ν) : Prop where
  annotation : ∀ node index s, keeps s →
    answerOf (host.annotationType node index s).1 = answers.annotation node index ∧
      keeps (host.annotationType node index s).2
  declared : ∀ node s, keeps s →
    answerOf (host.declaredType node s).1 = answers.declared node ∧
      keeps (host.declaredType node s).2

/-- From states of some kind a step has this outcome, and leaves such a state. -/
def Ends (keeps : σ → Prop) (step : Step σ α) (outcome : Except Stop α) : Prop :=
  ∀ p, keeps p.host → (step p).1 = outcome ∧ keeps (step p).2.host

namespace Ends

theorem pure (a : α) : Ends keeps (Pure.pure a : Step σ α) (.ok a) :=
  fun _ kept => ⟨rfl, kept⟩

theorem stop (reason : Stop) : Ends keeps (Step.stop reason : Step σ α) (.error reason) :=
  fun _ kept => ⟨rfl, kept⟩

theorem bind {step : Step σ α} {next : α → Step σ β} {a : α} {outcome : Except Stop β}
    (first : Ends keeps step (.ok a)) (rest : Ends keeps (next a) outcome) :
    Ends keeps (step >>= next) outcome := by
  intro p kept
  obtain ⟨same, kept'⟩ := first p kept
  change (Step.bind step next p).1 = outcome ∧ keeps (Step.bind step next p).2.host
  revert same kept'
  unfold Step.bind
  rcases step p with ⟨_ | found, p'⟩
  · rintro ⟨⟩
  · rintro ⟨⟩ kept'
    exact rest p' kept'

theorem bind_error {step : Step σ α} {next : α → Step σ β} {reason : Stop}
    (first : Ends keeps step (.error reason)) : Ends keeps (step >>= next) (.error reason) := by
  intro p kept
  obtain ⟨same, kept'⟩ := first p kept
  change (Step.bind step next p).1 = .error reason ∧ keeps (Step.bind step next p).2.host
  revert same kept'
  unfold Step.bind
  rcases step p with ⟨_ | found, p'⟩
  · rintro ⟨⟩ kept'
    exact ⟨rfl, kept'⟩
  · rintro ⟨⟩

theorem report (event : Event) : Ends keeps (Step.report event : Step σ PUnit) (.ok ⟨⟩) :=
  fun _ kept => ⟨rfl, kept⟩

theorem poll : Ends keeps (Step.poll .never : Step σ PUnit) (.ok ⟨⟩) :=
  fun _ kept => ⟨rfl, kept⟩

/-- A question may be answered in several ways that lead to one outcome. -/
theorem ask {question : σ → α × σ} {next : α → Step σ β} {outcome : Except Stop β}
    (answers : ∀ s, keeps s → keeps (question s).2 ∧ Ends keeps (next (question s).1) outcome) :
    Ends keeps (Step.ask question >>= next) outcome := by
  intro p kept
  obtain ⟨kept', rest⟩ := answers p.host kept
  exact rest ⟨(question p.host).2, p.polls, p.events⟩ kept'

end Ends

variable {host : Host ν σ} {answers : Answers ν}

def isMarked (host : Host ν σ) (answers : Answers ν) (node : ν) : Bool :=
  isCandidate host node && (List.range (host.annotationCount node)).any fun index =>
    answers.annotation node index == some Package.markerFullName

def chosen (host : Host ν σ) (answers : Answers ν) (nodes : List ν) : List ν :=
  deduplicate host (nodes.filter (isMarked host answers))

def describeTypes (descriptors : List Descriptor) :
    List EnumType → Except DescriptorError (List Descriptor)
  | [] => .ok descriptors
  | type :: rest =>
    match type.descriptor with
    | .error error => .error error
    | .ok descriptor => describeTypes (record descriptors descriptor) rest

def freshResult (descriptors : List Descriptor) : Result :=
  if descriptors.isEmpty then ⟨[Package.markerUnit], [], false⟩
  else ⟨[Package.markerUnit, ⟨Package.extensionsTag, Package.extensionsText descriptors⟩],
    descriptors, false⟩

theorem hasMarkerAmong_ends (gives : host.Gives keeps answers) (node : ν) (indices : List Nat) :
    Ends keeps (hasMarkerAmong host node indices) (.ok (indices.any fun index =>
      answers.annotation node index == some Package.markerFullName)) := by
  induction indices with
  | nil => exact Ends.pure false
  | cons index rest ih =>
    refine Ends.ask fun s kept => ?_
    obtain ⟨same, kept'⟩ := gives.annotation node index s kept
    refine ⟨kept', ?_⟩
    rw [List.any_cons, ← same]
    cases (host.annotationType node index s).1 with
    | error error => exact Ends.bind (Ends.report _) ih
    | ok resolved =>
      by_cases marker : resolved = some Package.markerFullName
      · simpa [answerOf, marker] using Ends.pure true
      · have other : (resolved == some Package.markerFullName) = false := by simpa using marker
        simpa only [answerOf, other, Bool.false_or, marker, if_false] using ih

theorem isTarget_ends (gives : host.Gives keeps answers) (node : ν) :
    Ends keeps (isTarget host node) (.ok (isMarked host answers node)) := by
  unfold isTarget isMarked
  by_cases candidate : isCandidate host node = true
  · simpa [candidate, hasMarker] using hasMarkerAmong_ends gives node _
  · simpa [candidate] using Ends.pure false

theorem collectTargets_ends (gives : host.Gives keeps answers) (nodes : List ν) :
    Ends keeps (collectTargets host .never nodes)
      (.ok (nodes.filter (isMarked host answers))) := by
  induction nodes with
  | nil => exact Ends.pure []
  | cons node rest ih =>
    refine Ends.bind Ends.poll (Ends.bind (isTarget_ends gives node) (Ends.bind ih ?_))
    rw [List.filter_cons]
    exact Ends.pure _

/-- What a node does to the descriptors. -/
theorem extractNode_ends (gives : host.Gives keeps answers) (descriptors : List Descriptor)
    (node : ν) :
    Ends keeps (extractNode host descriptors node)
      ((describeTypes descriptors (answers.declared node).toList).mapError .invalid) := by
  refine Ends.ask fun s kept => ?_
  obtain ⟨same, kept'⟩ := gives.declared node s kept
  refine ⟨kept', ?_⟩
  rw [← same]
  cases (host.declaredType node s).1 with
  | error error => exact Ends.bind (Ends.report _) (Ends.pure descriptors)
  | ok found =>
    cases found with
    | none => exact Ends.bind (Ends.report _) (Ends.pure descriptors)
    | some type =>
      simp only [answerOf, Option.toList_some, describeTypes]
      cases type.descriptor with
      | error error => exact Ends.stop _
      | ok descriptor => exact Ends.pure _

theorem extractNodes_ends (gives : host.Gives keeps answers) (nodes : List ν)
    (descriptors : List Descriptor) :
    Ends keeps (extractNodes host .never descriptors nodes)
      ((describeTypes descriptors (nodes.filterMap answers.declared)).mapError .invalid) := by
  induction nodes generalizing descriptors with
  | nil => exact Ends.pure descriptors
  | cons node rest ih =>
    refine Ends.bind Ends.poll ?_
    have first := extractNode_ends gives descriptors node
    cases type : answers.declared node with
    | none =>
      rw [type] at first
      rw [List.filterMap_cons_none type]
      exact Ends.bind first (ih descriptors)
    | some type' =>
      rw [type] at first
      rw [List.filterMap_cons_some type]
      simp only [Option.toList_some, describeTypes] at first ⊢
      cases described : type'.descriptor with
      | error error =>
        rw [described] at first
        exact Ends.bind_error first
      | ok descriptor =>
        rw [described] at first
        exact Ends.bind first (ih (record descriptors descriptor))

theorem describe_ends (gives : host.Gives keeps answers) (nodes : List ν) :
    Ends keeps (describe host .never nodes)
      ((describeTypes [] ((chosen host answers nodes).filterMap answers.declared)).mapError
        .invalid) := by
  refine Ends.bind (collectTargets_ends gives nodes) ?_
  have extracted := extractNodes_ends gives (chosen host answers nodes) []
  cases described : describeTypes [] ((chosen host answers nodes).filterMap answers.declared) with
  | error error =>
    rw [described] at extracted
    exact Ends.bind_error extracted
  | ok descriptors =>
    rw [described] at extracted
    exact Ends.bind extracted (Ends.bind Ends.poll (Ends.pure descriptors))

theorem resultOf_ends (descriptors : List Descriptor) :
    Ends keeps (resultOf freshRenderer descriptors) (.ok (freshResult descriptors)) := by
  unfold resultOf freshResult
  by_cases empty : descriptors.isEmpty = true
  · simpa [empty] using Ends.pure _
  · simp only [empty, Bool.false_eq_true, if_false]
    exact Ends.ask fun s kept => ⟨kept, Ends.pure _⟩

theorem run_of_ends {outcome : Except DescriptorError Result} {render : Renderer σ}
    {cancellation : Cancellation} {nodes : List ν} {state : σ}
    (whole : Ends keeps (describe host cancellation nodes >>= resultOf render)
      (outcome.mapError .invalid)) (kept : keeps state) :
    (run host render cancellation nodes state).1 = outcome := by
  obtain ⟨same, -⟩ := whole (Progress.start state) kept
  revert same
  unfold run generate settle
  rcases (describe host cancellation nodes >>= resultOf render) (Progress.start state) with ⟨ended, p⟩
  rintro rfl
  cases outcome <;> rfl

/-- The outcome of a run that nobody cancels. -/
theorem run_never (gives : host.Gives keeps answers) (nodes : List ν) {state : σ}
    (kept : keeps state) :
    (run host freshRenderer .never nodes state).1 =
      (describeTypes [] ((chosen host answers nodes).filterMap answers.declared)).map
        freshResult := by
  have described := describe_ends gives nodes
  refine run_of_ends ?_ kept
  cases outcome : describeTypes [] ((chosen host answers nodes).filterMap answers.declared) with
  | error error =>
    rw [outcome] at described
    exact Ends.bind_error described
  | ok descriptors =>
    rw [outcome] at described
    exact Ends.bind described (resultOf_ends descriptors)

end EnumLookup.Generation
