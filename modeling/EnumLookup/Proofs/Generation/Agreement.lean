import EnumLookup.Generation.Result

/-!
Runs that cannot be told apart. Two hosts in states of their own agree when related states give
related states and the same answers, where an error counts as no answer. Runs over such hosts
end alike after the same number of polls. Events are left out: they do tell an error apart.
-/
namespace EnumLookup.Generation

variable {ν σ τ α β γ δ : Type}

/-- What an answer says. A question that ends in an error has none. -/
def answerOf : Except ResolutionError (Option α) → Option α
  | .ok answer => answer
  | .error _ => none

def Alike (a b : Except ResolutionError (Option α)) : Prop := answerOf a = answerOf b

/-- Both steps stop for the same reason, or both yield values that are related. -/
inductive SameEnd (value : α → β → Prop) : Except Stop α → Except Stop β → Prop
  | ok {a : α} {b : β} (related : value a b) : SameEnd value (.ok a) (.ok b)
  | stop (reason : Stop) : SameEnd value (.error reason) (.error reason)

theorem SameEnd.eq {a b : Except Stop α} (same : SameEnd Eq a b) : a = b := by
  cases same with
  | ok related => rw [related]
  | stop reason => rfl

/-- From related states and equal numbers of polls, two steps end alike, in related states and with
equal numbers of polls. -/
def Agree (state : σ → τ → Prop) (value : α → β → Prop) (a : Step σ α) (b : Step τ β) : Prop :=
  ∀ p q, state p.host q.host → p.polls = q.polls →
    SameEnd value (a p).1 (b q).1 ∧ state (a p).2.host (b q).2.host ∧
      (a p).2.polls = (b q).2.polls

namespace Agree

variable {state : σ → τ → Prop} {value : α → β → Prop} {result : γ → δ → Prop}

theorem pure {a : α} {b : β} (related : value a b) :
    Agree state value (Pure.pure a : Step σ α) (Pure.pure b : Step τ β) := by
  intro p q states polls
  exact ⟨.ok related, states, polls⟩

theorem stop (reason : Stop) :
    Agree state value (Step.stop reason : Step σ α) (Step.stop reason : Step τ β) := by
  intro p q states polls
  exact ⟨.stop reason, states, polls⟩

theorem bind {a : Step σ α} {b : Step τ β} {next : α → Step σ γ} {other : β → Step τ δ}
    (first : Agree state value a b)
    (rest : ∀ x y, value x y → Agree state result (next x) (other y)) :
    Agree state result (a >>= next) (b >>= other) := by
  intro p q states polls
  obtain ⟨same, states', polls'⟩ := first p q states polls
  change SameEnd result (Step.bind a next p).1 (Step.bind b other q).1 ∧
    state (Step.bind a next p).2.host (Step.bind b other q).2.host ∧
      (Step.bind a next p).2.polls = (Step.bind b other q).2.polls
  revert same states' polls'
  unfold Step.bind
  rcases a p with ⟨endA, p'⟩
  rcases b q with ⟨endB, q'⟩
  intro same states' polls'
  cases same with
  | ok related => exact rest _ _ related p' q' states' polls'
  | stop reason => exact ⟨.stop reason, states', polls'⟩

theorem ask {question : σ → α × σ} {other : τ → β × τ}
    (answers : ∀ s t, state s t → value (question s).1 (other t).1 ∧
      state (question s).2 (other t).2) :
    Agree state value (Step.ask question) (Step.ask other) := by
  intro p q states polls
  obtain ⟨related, states'⟩ := answers p.host q.host states
  exact ⟨.ok related, states', polls⟩

/-- A report is seen in the events only. -/
theorem report (event other : Event) :
    Agree state (fun _ _ => True) (Step.report event) (Step.report other) := by
  intro p q states polls
  exact ⟨.ok trivial, states, polls⟩

theorem poll (cancellation : Cancellation) :
    Agree state (fun _ _ => True) (Step.poll cancellation) (Step.poll cancellation) := by
  intro p q states polls
  refine ⟨?_, states, congrArg (· + 1) polls⟩
  simp only [Step.poll, polls]
  by_cases requested : cancellation q.polls = true
  · simpa [requested] using SameEnd.stop .cancelled
  · simpa [requested] using SameEnd.ok trivial

/-- A report that only one side makes is not noticed by the other. -/
theorem reportLeft (event : Event) {a : Step σ α} {b : Step τ β} (same : Agree state value a b) :
    Agree state value (do Step.report event; a) b := by
  intro p q states polls
  exact same ⟨p.host, p.polls, p.events ++ [event]⟩ q states polls

theorem reportRight (event : Event) {a : Step σ α} {b : Step τ β} (same : Agree state value a b) :
    Agree state value a (do Step.report event; b) := by
  intro p q states polls
  exact same p ⟨q.host, q.polls, q.events ++ [event]⟩ states polls

end Agree

/-- Two hosts know the same of every node: the same facts, and the same answers in related states,
which stay related. -/
structure Host.Agrees (state : σ → τ → Prop) (a : Host ν σ) (b : Host ν τ) : Prop where
  key : ∀ node, a.key node = b.key node
  kind : ∀ node, a.kind node = b.kind node
  annotationCount : ∀ node, a.annotationCount node = b.annotationCount node
  annotation : ∀ node index s t, state s t →
    Alike (a.annotationType node index s).1 (b.annotationType node index t).1 ∧
      state (a.annotationType node index s).2 (b.annotationType node index t).2
  declared : ∀ node s t, state s t →
    Alike (a.declaredType node s).1 (b.declaredType node t).1 ∧
      state (a.declaredType node s).2 (b.declaredType node t).2

/-- Two renderers write the same text, and keep related states related. -/
def Renderer.Agrees (state : σ → τ → Prop) (a : Renderer σ) (b : Renderer τ) : Prop :=
  ∀ descriptors s t, state s t →
    (a descriptors s).1 = (b descriptors t).1 ∧ state (a descriptors s).2 (b descriptors t).2

section

variable {state : σ → τ → Prop} {a : Host ν σ} {b : Host ν τ}

theorem hasMarkerAmong_agree (hosts : a.Agrees state b) (node : ν) (indices : List Nat) :
    Agree state Eq (hasMarkerAmong a node indices) (hasMarkerAmong b node indices) := by
  induction indices with
  | nil => exact Agree.pure rfl
  | cons index rest ih =>
    refine Agree.bind (Agree.ask (hosts.annotation node index)) ?_
    intro x y same
    match x, y with
    | .ok resolved, .ok other =>
      obtain rfl : resolved = other := same
      by_cases marker : resolved = some Package.markerFullName
      · simpa [marker] using Agree.pure rfl
      · simpa [marker] using ih
    | .ok resolved, .error error =>
      obtain rfl : resolved = none := same
      simpa using Agree.reportRight _ ih
    | .error error, .ok other =>
      obtain rfl : none = other := same
      simpa using Agree.reportLeft _ ih
    | .error error, .error other => exact Agree.reportLeft _ (Agree.reportRight _ ih)

theorem isTarget_agree (hosts : a.Agrees state b) (node : ν) :
    Agree state Eq (isTarget a node) (isTarget b node) := by
  have same : isCandidate a node = isCandidate b node := by
    simp only [isCandidate, hosts.kind, hosts.annotationCount]
  simp only [isTarget, same, hasMarker, hosts.annotationCount]
  by_cases candidate : isCandidate b node = true
  · simp only [candidate, if_true]
    exact hasMarkerAmong_agree hosts node _
  · simp only [candidate, Bool.false_eq_true, if_false]
    exact Agree.pure rfl

theorem collectTargets_agree (hosts : a.Agrees state b) (cancellation : Cancellation)
    (nodes : List ν) :
    Agree state Eq (collectTargets a cancellation nodes) (collectTargets b cancellation nodes) := by
  induction nodes with
  | nil => exact Agree.pure rfl
  | cons node rest ih =>
    refine Agree.bind (Agree.poll cancellation) fun _ _ _ => ?_
    refine Agree.bind (isTarget_agree hosts node) ?_
    rintro chosen _ rfl
    refine Agree.bind ih ?_
    rintro more _ rfl
    exact Agree.pure rfl

theorem extractNode_agree (hosts : a.Agrees state b) (descriptors : List Descriptor) (node : ν) :
    Agree state Eq (extractNode a descriptors node) (extractNode b descriptors node) := by
  refine Agree.bind (Agree.ask (hosts.declared node)) ?_
  intro x y same
  match x, y with
  | .ok (some type), .ok (some other) =>
    obtain rfl : type = other := Option.some.inj same
    dsimp only
    cases type.descriptor with
    | ok descriptor => exact Agree.pure rfl
    | error error => exact Agree.stop _
  | .ok none, .ok none => exact Agree.reportLeft _ (Agree.reportRight _ (Agree.pure rfl))
  | .ok none, .error error => exact Agree.reportLeft _ (Agree.reportRight _ (Agree.pure rfl))
  | .error error, .ok none => exact Agree.reportLeft _ (Agree.reportRight _ (Agree.pure rfl))
  | .error error, .error other =>
    exact Agree.reportLeft _ (Agree.reportRight _ (Agree.pure rfl))
  | .ok (some type), .ok none => cases same
  | .ok none, .ok (some type) => cases same
  | .ok (some type), .error error => cases same
  | .error error, .ok (some type) => cases same

theorem extractNodes_agree (hosts : a.Agrees state b) (cancellation : Cancellation)
    (nodes : List ν) (descriptors : List Descriptor) :
    Agree state Eq (extractNodes a cancellation descriptors nodes)
      (extractNodes b cancellation descriptors nodes) := by
  induction nodes generalizing descriptors with
  | nil => exact Agree.pure rfl
  | cons node rest ih =>
    refine Agree.bind (Agree.poll cancellation) fun _ _ _ => ?_
    refine Agree.bind (extractNode_agree hosts descriptors node) ?_
    rintro more _ rfl
    exact ih more

theorem deduplicate_agree (hosts : a.Agrees state b) (targets : List ν) :
    deduplicate a targets = deduplicate b targets := by
  have same : distinct a targets = distinct b targets := by
    induction targets with
    | nil => rfl
    | cons node rest ih => simp only [distinct, ih, hosts.key]
  simp only [deduplicate, same, hosts.key]

theorem describe_agree (hosts : a.Agrees state b) (cancellation : Cancellation) (nodes : List ν) :
    Agree state Eq (describe a cancellation nodes) (describe b cancellation nodes) := by
  refine Agree.bind (collectTargets_agree hosts cancellation nodes) ?_
  rintro targets _ rfl
  have extracts : Agree state Eq (extract a cancellation targets)
      (extract b cancellation targets) := by
    simpa only [extract, deduplicate_agree hosts] using extractNodes_agree hosts cancellation _ _
  refine Agree.bind extracts ?_
  rintro descriptors _ rfl
  exact Agree.bind (Agree.poll cancellation) fun _ _ _ => Agree.pure rfl

theorem resultOf_agree {render : Renderer σ} {other : Renderer τ}
    (renderers : render.Agrees state other) (descriptors : List Descriptor) :
    Agree state Eq (resultOf render descriptors) (resultOf other descriptors) := by
  unfold resultOf
  split
  · exact Agree.pure rfl
  · refine Agree.bind (Agree.ask (renderers descriptors)) ?_
    rintro text _ rfl
    exact Agree.pure rfl

/-- Runs over hosts that agree, with renderers that agree, have the same outcome after the same
number of polls, and leave related states. -/
theorem run_agree {render : Renderer σ} {other : Renderer τ} (hosts : a.Agrees state b)
    (renderers : render.Agrees state other) (cancellation : Cancellation) (nodes : List ν)
    {s : σ} {t : τ} (related : state s t) :
    (run a render cancellation nodes s).1 = (run b other cancellation nodes t).1 ∧
      state (run a render cancellation nodes s).2.host (run b other cancellation nodes t).2.host ∧
      (run a render cancellation nodes s).2.polls = (run b other cancellation nodes t).2.polls := by
  have whole : Agree state Eq
      (describe a cancellation nodes >>= resultOf render)
      (describe b cancellation nodes >>= resultOf other) := by
    refine Agree.bind (describe_agree hosts cancellation nodes) ?_
    rintro descriptors _ rfl
    exact resultOf_agree renderers descriptors
  have ends := whole (Progress.start s) (Progress.start t) related rfl
  revert ends
  unfold run generate settle
  rcases (describe a cancellation nodes >>= resultOf render) (Progress.start s) with ⟨endA, p⟩
  rcases (describe b cancellation nodes >>= resultOf other) (Progress.start t) with ⟨endB, q⟩
  rintro ⟨same, states, polls⟩
  obtain rfl : endA = endB := same.eq
  cases endA with
  | ok result => exact ⟨rfl, states, polls⟩
  | error reason =>
    cases reason with
    | cancelled => exact ⟨rfl, states, polls⟩
    | invalid error => exact ⟨rfl, states, polls⟩

end

end EnumLookup.Generation
