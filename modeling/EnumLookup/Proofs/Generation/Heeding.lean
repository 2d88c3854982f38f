import EnumLookup.Proofs.Generation.Origins
import EnumLookup.Session

/-!
What a cancellation can do to a run: nothing, or end it. Up to the poll at which it is obeyed every
step is the one that nobody cancels, so a run that is not cancelled has the result of a run that
nobody cancels.
-/
namespace EnumLookup.Generation

variable {ν σ α β : Type} {host : Host ν σ} {render : Renderer σ} {cancellation : Cancellation}
  {nodes : List ν} {state : σ} {result : Result}

/-- However it is cancelled, the step goes as if nobody cancelled it, or is cancelled. -/
def Heeds (step : Cancellation → Step σ α) : Prop :=
  ∀ cancellation p,
    step cancellation p = step .never p ∨ (step cancellation p).1 = .error .cancelled

namespace Heeds

/-- A step without polls cannot be cancelled. -/
theorem of_quiet (step : Step σ α) : Heeds fun _ => step :=
  fun _ _ => .inl rfl

theorem poll : Heeds (Step.poll : Cancellation → Step σ PUnit) := by
  intro cancellation p
  unfold Step.poll
  cases cancellation p.polls with
  | false => exact .inl rfl
  | true => exact .inr rfl

theorem bind {step : Cancellation → Step σ α} {next : Cancellation → α → Step σ β}
    (first : Heeds step) (rest : ∀ a, Heeds fun cancellation => next cancellation a) :
    Heeds fun cancellation => step cancellation >>= next cancellation := by
  intro cancellation p
  change Step.bind _ _ p = Step.bind _ _ p ∨ (Step.bind _ _ p).1 = _
  unfold Step.bind
  rcases first cancellation p with same | cancelled
  · rw [same]
    rcases step .never p with ⟨reason | a, q⟩
    · exact .inl rfl
    · exact rest a cancellation q
  · revert cancelled
    rcases step cancellation p with ⟨reason | a, q⟩
    · rintro ⟨⟩
      exact .inr rfl
    · rintro ⟨⟩

end Heeds

theorem collectTargets_heeds (host : Host ν σ) (nodes : List ν) :
    Heeds fun cancellation => collectTargets host cancellation nodes := by
  induction nodes with
  | nil => exact Heeds.of_quiet _
  | cons node rest ih =>
    refine Heeds.bind Heeds.poll fun _ => ?_
    refine Heeds.bind (Heeds.of_quiet (isTarget host node)) fun chosen => ?_
    exact Heeds.bind ih fun more => Heeds.of_quiet _

theorem extractNodes_heeds (host : Host ν σ) (descriptors : List Descriptor) (nodes : List ν) :
    Heeds fun cancellation => extractNodes host cancellation descriptors nodes := by
  induction nodes generalizing descriptors with
  | nil => exact Heeds.of_quiet _
  | cons node rest ih =>
    refine Heeds.bind Heeds.poll fun _ => ?_
    exact Heeds.bind (Heeds.of_quiet (extractNode host descriptors node)) ih

theorem describe_heeds (host : Host ν σ) (nodes : List ν) :
    Heeds fun cancellation => describe host cancellation nodes := by
  refine Heeds.bind (collectTargets_heeds host nodes) fun targets => ?_
  refine Heeds.bind (extractNodes_heeds host [] _) fun descriptors => ?_
  exact Heeds.bind Heeds.poll fun _ => Heeds.of_quiet _

/-- The units of a result start with the marker. -/
theorem run_units (ran : (run host render cancellation nodes state).1 = .ok result) :
    ∃ rest, result.units = Package.markerUnit :: rest := by
  have rendered (descriptors : List Descriptor) : Yields (resultOf render descriptors)
      fun result => ∃ rest, result.units = Package.markerUnit :: rest := by
    unfold resultOf
    split
    · exact Yields.pure ⟨[], rfl⟩
    · exact Yields.bind (Yields.ask _) fun text _ => Yields.pure ⟨[_], rfl⟩
  have ends : Yields (generate host render cancellation nodes)
      fun result => ∃ rest, result.units = Package.markerUnit :: rest :=
    settle_yields (Yields.bind (describe_yields host cancellation nodes) fun descriptors _ =>
      rendered descriptors) ⟨[], rfl⟩
  have holds := ends (.start state)
  revert ran holds
  unfold run
  rcases generate host render cancellation nodes (.start state) with ⟨(_ | _) | other, q⟩
  · rintro ⟨⟩ -
    exact ⟨[], rfl⟩
  · rintro ⟨⟩
  · rintro ⟨⟩ holds
    exact holds _ rfl

/-- A run that is not cancelled goes as if nobody cancelled it. -/
theorem run_uncancelled (ran : (run host render cancellation nodes state).1 = .ok result)
    (uncancelled : result.cancelled = false) :
    run host render .never nodes state = run host render cancellation nodes state := by
  let step (cancellation : Cancellation) : Step σ Result :=
    describe host cancellation nodes >>= resultOf render
  have whole : Heeds step := Heeds.bind (describe_heeds host nodes) fun _ => Heeds.of_quiet _
  have settled (cancellation : Cancellation) :
      generate host render cancellation nodes = settle (step cancellation) := rfl
  rcases whole cancellation (.start state) with same | cancelled
  · unfold run
    rw [settled, settled, settle, settle, same]
  · exfalso
    revert ran
    unfold run
    rw [settled, settle]
    revert cancelled
    rcases step cancellation (.start state) with ⟨reason | other, q⟩
    · rintro ⟨⟩ ⟨⟩
      cases uncancelled
    · rintro ⟨⟩

end EnumLookup.Generation

namespace EnumLookup

variable [Text.Characters]
variable {cancellation : Cancellation} {files : List SourceFile} {result : Generation.Result}

theorem runAfresh_ok (ran : runAfresh cancellation files = .ok result) :
    ∃ loaded, Program.load .standard .empty files = .ok loaded ∧
      (Generation.run loaded.program.host Generation.freshRenderer cancellation
        loaded.program.declarations loaded.memo).1 = .ok result := by
  unfold runAfresh at ran
  split at ran
  · cases ran
  · next loaded loads =>
    refine ⟨loaded, loads, ?_⟩
    revert ran
    rcases (Generation.run loaded.program.host Generation.freshRenderer cancellation
      loaded.program.declarations loaded.memo).1 with error | other
    · rintro ⟨⟩
    · rintro ⟨⟩
      rfl

theorem runAfresh_units (ran : runAfresh cancellation files = .ok result) : result.units ≠ [] := by
  obtain ⟨loaded, -, ran⟩ := runAfresh_ok ran
  obtain ⟨rest, units⟩ := Generation.run_units ran
  rw [units]
  exact List.cons_ne_nil _ _

/-- A result that is not that of a cancelled run is the one that the files have. -/
theorem runAfresh_uncancelled (ran : runAfresh cancellation files = .ok result)
    (uncancelled : result.cancelled = false) : runAfresh .never files = .ok result := by
  obtain ⟨loaded, loads, ran⟩ := runAfresh_ok ran
  have same := Generation.run_uncancelled ran uncancelled
  simp only [runAfresh, loads, same, ran]
  rfl

end EnumLookup
