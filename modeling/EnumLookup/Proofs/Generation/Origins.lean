import EnumLookup.Proofs.Generation.Recording

/-!
Where the descriptors of a run come from. Nothing is asked of the host here: its answers may change
with its state from one question to the next, and the run may be cancelled. A descriptor that comes
out was made from an answer about a node that was found marked.
-/
namespace EnumLookup.Generation

variable {ν σ α β : Type}

def Yields (step : Step σ α) (property : α → Prop) : Prop :=
  ∀ p a, (step p).1 = .ok a → property a

namespace Yields

variable {property : α → Prop} {other : β → Prop}

theorem pure {a : α} (holds : property a) : Yields (Pure.pure a : Step σ α) property := by
  rintro p _ ⟨⟩
  exact holds

theorem stop (reason : Stop) : Yields (Step.stop reason : Step σ α) property := by
  rintro p _ ⟨⟩

theorem report (event : Event) : Yields (Step.report event : Step σ PUnit) fun _ => True :=
  fun _ _ _ => trivial

theorem poll (cancellation : Cancellation) :
    Yields (Step.poll cancellation : Step σ PUnit) fun _ => True :=
  fun _ _ _ => trivial

theorem bind {step : Step σ α} {next : α → Step σ β} (first : Yields step property)
    (rest : ∀ a, property a → Yields (next a) other) : Yields (step >>= next) other := by
  intro p b yielded
  have holds := first p
  change (Step.bind step next p).1 = .ok b at yielded
  revert yielded holds
  unfold Step.bind
  rcases step p with ⟨_ | a, q⟩
  · rintro - ⟨⟩
  · intro holds yielded
    exact rest a (holds a rfl) q b yielded

/-- An answer is one that the host gives in some state. -/
theorem ask (question : σ → α × σ) :
    Yields (Step.ask question) fun answer => ∃ state, (question state).1 = answer := by
  rintro p _ ⟨⟩
  exact ⟨p.host, rfl⟩

end Yields

/-- A decorator of the node is answered with the marker, in some state. -/
def Host.Carries (host : Host ν σ) (node : ν) : Prop :=
  ∃ index state, (host.annotationType node index state).1 = .ok (some Package.markerFullName)

/-- The descriptor is that of the type which the host answers for the node, in some state. -/
def Host.Describes (host : Host ν σ) (node : ν) (descriptor : Descriptor) : Prop :=
  ∃ state type, (host.declaredType node state).1 = .ok (some type) ∧
    type.descriptor = .ok descriptor

variable {host : Host ν σ} {cancellation : Cancellation}

theorem hasMarkerAmong_yields (host : Host ν σ) (node : ν) (indices : List Nat) :
    Yields (hasMarkerAmong host node indices) fun found => found = true → host.Carries node := by
  induction indices with
  | nil => exact Yields.pure (by simp)
  | cons index rest ih =>
    refine Yields.bind (Yields.ask _) ?_
    rintro answer ⟨state, answered⟩
    rcases answer with error | resolved
    · exact Yields.bind (Yields.report _) fun _ _ => ih
    · by_cases marker : resolved = some Package.markerFullName
      · subst marker
        simp only [if_true]
        exact Yields.pure fun _ => ⟨index, state, answered⟩
      · simp only [marker, if_false]
        exact ih

theorem isTarget_yields (host : Host ν σ) (node : ν) :
    Yields (isTarget host node) fun found =>
      found = true → host.kind node = .enum ∧ host.Carries node := by
  unfold isTarget
  split
  · next candidate =>
    have kind : host.kind node = .enum := by
      simp only [isCandidate, Bool.and_eq_true, beq_iff_eq] at candidate
      exact candidate.1
    intro p found yielded marked
    exact ⟨kind, hasMarkerAmong_yields host node _ p found yielded marked⟩
  · exact Yields.pure (by simp)

theorem collectTargets_yields (host : Host ν σ) (cancellation : Cancellation) (nodes : List ν) :
    Yields (collectTargets host cancellation nodes) fun targets =>
      ∀ node ∈ targets, node ∈ nodes ∧ host.kind node = .enum ∧ host.Carries node := by
  induction nodes with
  | nil => exact Yields.pure (by simp)
  | cons first rest ih =>
    refine Yields.bind (Yields.poll _) ?_
    intro _ _
    refine Yields.bind (isTarget_yields host first) ?_
    intro found marked
    refine Yields.bind ih ?_
    intro more inRest
    have later : ∀ node ∈ more,
        node ∈ first :: rest ∧ host.kind node = .enum ∧ host.Carries node := by
      intro node member
      obtain ⟨inNodes, target⟩ := inRest node member
      exact ⟨List.mem_cons_of_mem _ inNodes, target⟩
    apply Yields.pure
    cases found with
    | false => exact later
    | true =>
      intro node member
      rcases List.mem_cons.mp member with rfl | member
      · exact ⟨List.mem_cons_self .., marked rfl⟩
      · exact later node member

theorem extractNode_yields (host : Host ν σ) (descriptors : List Descriptor) (node : ν) :
    Yields (extractNode host descriptors node) fun out =>
      ∀ d ∈ out, d ∈ descriptors ∨ host.Describes node d := by
  refine Yields.bind (Yields.ask _) ?_
  rintro answer ⟨state, answered⟩
  rcases answer with error | type
  · exact Yields.bind (Yields.report _) fun _ _ => Yields.pure fun d member => .inl member
  · cases type with
    | none => exact Yields.bind (Yields.report _) fun _ _ => Yields.pure fun d member => .inl member
    | some type =>
      cases made : type.descriptor with
      | error error =>
        simp only [made]
        exact Yields.stop _
      | ok descriptor =>
        simp only [made]
        apply Yields.pure
        intro d member
        simp only [record, List.mem_append, List.mem_filter, List.mem_singleton] at member
        rcases member with ⟨before, -⟩ | rfl
        · exact .inl before
        · exact .inr ⟨state, type, answered, made⟩

theorem extractNodes_yields (host : Host ν σ) (cancellation : Cancellation)
    (descriptors : List Descriptor) (nodes : List ν) :
    Yields (extractNodes host cancellation descriptors nodes) fun out =>
      ∀ d ∈ out, d ∈ descriptors ∨ ∃ node ∈ nodes, host.Describes node d := by
  induction nodes generalizing descriptors with
  | nil => exact Yields.pure fun d member => .inl member
  | cons first rest ih =>
    refine Yields.bind (Yields.poll _) ?_
    intro _ _
    refine Yields.bind (extractNode_yields host descriptors first) ?_
    intro more fromFirst p out yielded d member
    rcases ih more p out yielded d member with before | ⟨node, inRest, describes⟩
    · rcases fromFirst d before with before | describes
      · exact .inl before
      · exact .inr ⟨first, List.mem_cons_self .., describes⟩
    · exact .inr ⟨node, List.mem_cons_of_mem _ inRest, describes⟩

theorem mem_of_mem_deduplicate {nodes : List ν} {node : ν}
    (member : node ∈ deduplicate host nodes) : node ∈ nodes :=
  mem_of_mem_distinct (List.mem_mergeSort.mp member)

theorem describe_yields (host : Host ν σ) (cancellation : Cancellation) (nodes : List ν) :
    Yields (describe host cancellation nodes) fun out =>
      ∀ d ∈ out, ∃ node ∈ nodes, host.kind node = .enum ∧ host.Carries node ∧
        host.Describes node d := by
  refine Yields.bind (collectTargets_yields host cancellation nodes) ?_
  intro targets marked
  refine Yields.bind (extractNodes_yields host cancellation [] _) ?_
  intro out described
  refine Yields.bind (Yields.poll _) ?_
  intro _ _
  apply Yields.pure
  intro d member
  rcases described d member with none | ⟨node, kept, describes⟩
  · cases none
  · obtain ⟨inNodes, kind, carries⟩ := marked node (mem_of_mem_deduplicate kept)
    exact ⟨node, inNodes, kind, carries, describes⟩

theorem resultOf_yields (render : Renderer σ) (descriptors : List Descriptor) :
    Yields (resultOf render descriptors) fun result => result.descriptors = descriptors := by
  unfold resultOf
  split
  · next none => exact Yields.pure (List.isEmpty_iff.mp none).symm
  · exact Yields.bind (Yields.ask _) fun _ _ => Yields.pure rfl

theorem settle_yields {step : Step σ Result} {property : Result → Prop}
    (yields : Yields step property) (cancelled : property cancelledResult) :
    Yields (settle step) property := by
  intro p result ended
  have holds := yields p
  revert ended holds
  unfold settle
  rcases step p with ⟨(_ | _) | other, q⟩
  · rintro ⟨⟩ -
    exact cancelled
  · rintro ⟨⟩
  · rintro ⟨⟩ holds
    exact holds _ rfl

/-- Every descriptor of a result is that of a node that looks like an enum and carries the marker,
however the answers of the host change and wherever the run is cancelled. -/
theorem run_origin {render : Renderer σ} {nodes : List ν} {state : σ} {result : Result}
    (ran : (run host render cancellation nodes state).1 = .ok result) {d : Descriptor}
    (member : d ∈ result.descriptors) :
    ∃ node ∈ nodes, host.kind node = .enum ∧ host.Carries node ∧ host.Describes node d := by
  have ends : Yields (generate host render cancellation nodes) fun result =>
      ∀ d ∈ result.descriptors, ∃ node ∈ nodes, host.kind node = .enum ∧ host.Carries node ∧
        host.Describes node d := by
    refine settle_yields (Yields.bind (describe_yields host cancellation nodes) ?_) ?_
    · intro descriptors origin p result yielded
      rw [resultOf_yields render descriptors p result yielded]
      exact origin
    · intro d none
      cases none
  have holds := ends (.start state)
  revert ran holds
  unfold run
  rcases generate host render cancellation nodes (.start state) with ⟨(_ | _) | other, q⟩
  · rintro ⟨⟩
    cases member
  · rintro ⟨⟩
  · rintro ⟨⟩ holds
    exact holds _ rfl d member

end EnumLookup.Generation
