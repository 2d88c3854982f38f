import EnumLookup.Proofs.Generation.Deduplication
import EnumLookup.Session

/-!
Runs that are cancelled after some polls. Polls fall before each node, before each key of a target
and once at the end; the other steps make none. A cancellation that comes later than all of them is
not noticed, one that comes earlier leaves the marker and nothing else, and no unit is rendered.
-/
namespace EnumLookup.Generation

variable {ν σ α β : Type}

/-- From `p` the step yields `a` and leaves `q` as long as nobody cancels it before, and it is
cancelled at the first poll after which it should have stopped. -/
structure Paced (step : Cancellation → Step σ α) (p : Progress σ) (a : α) (q : Progress σ) :
    Prop where
  uncancelled : step .never p = (.ok a, q)
  forward : p.polls ≤ q.polls
  inTime : ∀ polls, q.polls ≤ polls → step (.afterPolls polls) p = (.ok a, q)
  late : ∀ polls, p.polls ≤ polls → polls < q.polls →
    ∃ left, step (.afterPolls polls) p = (.error .cancelled, left) ∧ left.polls = polls + 1

theorem Step.ask_bind (question : σ → α × σ) (next : α → Step σ β) (p : Progress σ) :
    (Step.ask question >>= next) p =
      next (question p.host).1 { p with host := (question p.host).2 } := rfl

namespace Paced

variable {p q r : Progress σ} {a : α} {b : β}

/-- A step without polls is not cancelled. -/
theorem of_quiet {step : Step σ α} (ends : step p = (.ok a, q)) (quiet : q.polls = p.polls) :
    Paced (fun _ => step) p a q where
  uncancelled := ends
  forward := by omega
  inTime _ _ := ends
  late := by omega

theorem pure (a : α) (p : Progress σ) : Paced (fun _ => Pure.pure a) p a p :=
  of_quiet rfl rfl

theorem poll (p : Progress σ) :
    Paced Step.poll p ⟨⟩ { p with polls := p.polls + 1 } where
  uncancelled := rfl
  forward := by simp
  inTime := by
    intro polls enough
    have early : ¬ polls ≤ p.polls := by simp at enough; omega
    simp [Step.poll, Cancellation.afterPolls, early]
  late := by
    intro polls started ended
    have now : polls = p.polls := by simp at ended; omega
    subst now
    exact ⟨{ p with polls := p.polls + 1 }, by simp [Step.poll, Cancellation.afterPolls], rfl⟩

theorem bind {step : Cancellation → Step σ α} {next : Cancellation → α → Step σ β}
    (first : Paced step p a q) (rest : Paced (fun c => next c a) q b r) :
    Paced (fun c => step c >>= next c) p b r := by
  have continues (c : Cancellation) (same : step c p = (.ok a, q)) :
      (step c >>= next c) p = next c a q := by
    change Step.bind (step c) (next c) p = next c a q
    simp only [Step.bind, same]
  refine ⟨?_, first.forward.trans rest.forward, ?_, ?_⟩
  · rw [continues _ first.uncancelled, rest.uncancelled]
  · intro polls enough
    have := rest.forward
    rw [continues _ (first.inTime polls (by omega)), rest.inTime polls enough]
  · intro polls started ended
    by_cases during : polls < q.polls
    · obtain ⟨left, cancelled, count⟩ := first.late polls started during
      refine ⟨left, ?_, count⟩
      change Step.bind (step _) (next _) p = (.error .cancelled, left)
      simp only [Step.bind, cancelled]
    · rw [continues _ (first.inTime polls (by omega))]
      exact rest.late polls (by omega) ended

end Paced

def Host.Describable (host : Host ν σ) : Prop :=
  ∀ node state type, (host.declaredType node state).1 = .ok (some type) →
    ∃ descriptor, type.descriptor = .ok descriptor

theorem listedHost_describable {refers : List (String × String)} {types : List (Key × EnumType)}
    (valid : ∀ entry ∈ types, ∃ descriptor, entry.2.descriptor = .ok descriptor) :
    (listedHost refers types).Describable := by
  intro node state type known
  have listed : types.lookup node.key = some type := Except.ok.inj known
  obtain ⟨before, after, rfl, -⟩ := List.lookup_eq_some_iff.mp listed
  exact valid _ (List.mem_append_right _ (List.mem_cons_self ..))

section

variable {host : Host ν σ}

theorem hasMarkerAmong_quiet (host : Host ν σ) (node : ν) (indices : List Nat) (p : Progress σ) :
    ∃ found q, hasMarkerAmong host node indices p = (.ok found, q) ∧ q.polls = p.polls := by
  induction indices generalizing p with
  | nil => exact ⟨false, p, rfl, rfl⟩
  | cons index rest ih =>
    rw [hasMarkerAmong, Step.ask_bind]
    rcases host.annotationType node index p.host with ⟨error | resolved, state⟩
    · obtain ⟨found, q, ends, quiet⟩ := ih
        ⟨state, p.polls, p.events ++ [.decoratorUnresolved index (host.key node).name error]⟩
      exact ⟨found, q, ends, quiet⟩
    · by_cases marker : resolved = some Package.markerFullName
      · exact ⟨true, ⟨state, p.polls, p.events⟩, by simp only [marker, if_true]; rfl, rfl⟩
      · obtain ⟨found, q, ends, quiet⟩ := ih ⟨state, p.polls, p.events⟩
        exact ⟨found, q, by simpa only [marker, if_false] using ends, quiet⟩

theorem isTarget_quiet (host : Host ν σ) (node : ν) (p : Progress σ) :
    ∃ found q, isTarget host node p = (.ok found, q) ∧ q.polls = p.polls := by
  unfold isTarget
  split
  · exact hasMarkerAmong_quiet host node _ p
  · exact ⟨false, p, rfl, rfl⟩

theorem collectTargets_paced (host : Host ν σ) (nodes : List ν) (p : Progress σ) :
    ∃ targets q, Paced (collectTargets host · nodes) p targets q ∧
      q.polls = p.polls + nodes.length := by
  induction nodes generalizing p with
  | nil => exact ⟨[], p, Paced.pure [] p, rfl⟩
  | cons node rest ih =>
    obtain ⟨found, q, ends, quiet⟩ := isTarget_quiet host node { p with polls := p.polls + 1 }
    obtain ⟨more, r, paced, count⟩ := ih q
    refine ⟨_, r, (Paced.poll p).bind ((Paced.of_quiet ends quiet).bind
      (paced.bind (Paced.pure _ r))), ?_⟩
    simp only [count, quiet, List.length_cons]
    omega

theorem extractNode_quiet (describable : host.Describable) (descriptors : List Descriptor)
    (node : ν) (p : Progress σ) :
    ∃ out q, extractNode host descriptors node p = (.ok out, q) ∧ q.polls = p.polls := by
  have types := describable node p.host
  rw [extractNode, Step.ask_bind]
  revert types
  rcases host.declaredType node p.host with ⟨error | type, state⟩
  · intro
    exact ⟨descriptors, _, rfl, rfl⟩
  · intro types
    cases type with
    | none => exact ⟨descriptors, _, rfl, rfl⟩
    | some type =>
      obtain ⟨descriptor, ok⟩ := types type rfl
      exact ⟨record descriptors descriptor, ⟨state, p.polls, p.events⟩, by simp only [ok]; rfl, rfl⟩

theorem extractNodes_paced (describable : host.Describable) (descriptors : List Descriptor)
    (nodes : List ν) (p : Progress σ) :
    ∃ out q, Paced (extractNodes host · descriptors nodes) p out q ∧
      q.polls = p.polls + nodes.length := by
  induction nodes generalizing descriptors p with
  | nil => exact ⟨descriptors, p, Paced.pure descriptors p, rfl⟩
  | cons node rest ih =>
    obtain ⟨more, q, ends, quiet⟩ :=
      extractNode_quiet describable descriptors node { p with polls := p.polls + 1 }
    obtain ⟨out, r, paced, count⟩ := ih more q
    refine ⟨out, r, (Paced.poll p).bind ((Paced.of_quiet ends quiet).bind paced), ?_⟩
    simp only [count, quiet, List.length_cons]
    omega

theorem describe_paced (describable : host.Describable) (nodes : List ν) (p : Progress σ) :
    ∃ targets out q, (collectTargets host .never nodes p).1 = .ok targets ∧
      Paced (describe host · nodes) p out q ∧
      q.polls = p.polls + (nodes.length + (targets.map host.key).toFinset.card + 1) := by
  obtain ⟨targets, q, collected, collected_polls⟩ := collectTargets_paced host nodes p
  obtain ⟨out, r, extracted, extracted_polls⟩ :=
    extractNodes_paced describable [] (deduplicate host targets) q
  refine ⟨targets, out, { r with polls := r.polls + 1 }, by rw [collected.uncancelled], ?_, ?_⟩
  · exact collected.bind (extracted.bind ((Paced.poll r).bind (Paced.pure out _)))
  · simp only [extracted_polls, collected_polls, length_deduplicate]
    omega

theorem resultOf_quiet (render : Renderer σ) (descriptors : List Descriptor) (p : Progress σ) :
    ∃ result q, resultOf render descriptors p = (.ok result, q) ∧ q.polls = p.polls ∧
      result.cancelled = false ∧ result.descriptors = descriptors := by
  unfold resultOf
  split
  · next none =>
    exact ⟨_, p, rfl, rfl, rfl, (List.isEmpty_iff.mp none).symm⟩
  · rw [Step.ask_bind]
    exact ⟨_, _, rfl, rfl, rfl, rfl⟩

/-- Once the descriptors are there, the run has a result after no further poll. -/
theorem run_of_described (render : Renderer σ) {cancellation : Cancellation} {nodes : List ν}
    {state : σ} {descriptors : List Descriptor} {q : Progress σ}
    (described : describe host cancellation nodes (.start state) = (.ok descriptors, q)) :
    ∃ result r, run host render cancellation nodes state = (.ok result, r) ∧
      resultOf render descriptors q = (.ok result, r) ∧ r.polls = q.polls ∧
      result.cancelled = false ∧ result.descriptors = descriptors := by
  obtain ⟨result, r, rendered, quiet, finished, same⟩ := resultOf_quiet render descriptors q
  refine ⟨result, r, ?_, rendered, quiet, finished, same⟩
  have whole : (describe host cancellation nodes >>= resultOf render) (.start state) =
      (.ok result, r) := by
    change Step.bind _ _ _ = _
    simp only [Step.bind, described, rendered]
  simp only [run, generate, settle, whole]

theorem run_of_cancelled {render : Renderer σ} {cancellation : Cancellation} {nodes : List ν}
    {state : σ} {left : Progress σ}
    (described : describe host cancellation nodes (.start state) = (.error .cancelled, left)) :
    run host render cancellation nodes state =
      (.ok cancelledResult, { left with events := left.events ++ [.cancelled] }) := by
  have whole : (describe host cancellation nodes >>= resultOf render) (.start state) =
      (.error .cancelled, left) := by
    change Step.bind _ _ _ = _
    simp only [Step.bind, described]
  simp only [run, generate, settle, whole]

def Renderer.counted (render : Renderer σ) : Renderer (σ × Nat) := fun descriptors (state, calls) =>
  let (text, state) := render descriptors state
  (text, state, calls + 1)

def renderings (host : Host ν σ) (render : Renderer σ) (cancellation : Cancellation)
    (nodes : List ν) (state : σ) : Nat :=
  (run (host.beside Nat) render.counted cancellation nodes (state, 0)).2.host.2

theorem Host.beside_agrees_at {τ : Type} (host : Host ν σ) (other : τ) :
    (host.beside τ).Agrees (fun wide narrow => wide = (narrow, other)) host where
  key _ := rfl
  kind _ := rfl
  annotationCount _ := rfl
  annotation := by
    rintro node index _ state rfl
    exact ⟨rfl, rfl⟩
  declared := by
    rintro node _ state rfl
    exact ⟨rfl, rfl⟩

/-- Descriptors are found without the renderer. -/
theorem describe_beside (host : Host ν σ) (cancellation : Cancellation) (nodes : List ν)
    (state : σ) :
    (describe (host.beside Nat) cancellation nodes (.start (state, 0))).1 =
        (describe host cancellation nodes (.start state)).1 ∧
      (describe (host.beside Nat) cancellation nodes (.start (state, 0))).2.host.2 = 0 := by
  obtain ⟨same, counted, -⟩ := describe_agree (host.beside_agrees_at 0) cancellation nodes
    (.start (state, 0)) (.start state) rfl rfl
  exact ⟨same.eq, by rw [counted]⟩

theorem renderings_of_described (render : Renderer σ) {cancellation : Cancellation}
    {nodes : List ν} {state : σ} {descriptors : List Descriptor}
    (described : (describe host cancellation nodes (.start state)).1 = .ok descriptors) :
    renderings host render cancellation nodes state = if descriptors = [] then 0 else 1 := by
  obtain ⟨same, uncounted⟩ := describe_beside host cancellation nodes state
  rcases found : describe (host.beside Nat) cancellation nodes (.start (state, 0)) with ⟨outcome, q⟩
  rw [found] at same uncounted
  obtain rfl : outcome = .ok descriptors := same.trans described
  obtain ⟨result, r, ran, rendered, -⟩ := run_of_described render.counted found
  rw [renderings, ran]
  unfold resultOf at rendered
  by_cases none : descriptors = []
  · subst none
    cases rendered
    simpa using uncounted
  · simp only [List.isEmpty_iff, none, if_false, Step.ask_bind] at rendered
    cases rendered
    have once : (render.counted descriptors q.host).2.2 = q.host.2 + 1 := rfl
    have before : q.host.2 = 0 := uncounted
    simp [none, once, before]

theorem renderings_of_cancelled (render : Renderer σ) {cancellation : Cancellation}
    {nodes : List ν} {state : σ}
    (described : (describe host cancellation nodes (.start state)).1 = .error .cancelled) :
    renderings host render cancellation nodes state = 0 := by
  obtain ⟨same, uncounted⟩ := describe_beside host cancellation nodes state
  rcases found : describe (host.beside Nat) cancellation nodes (.start (state, 0)) with ⟨outcome, q⟩
  rw [found] at same uncounted
  obtain rfl : outcome = .error .cancelled := same.trans described
  rw [renderings, run_of_cancelled found]
  exact uncounted

/-- Cancellation is all or nothing. A run polls once for each node, once for each key of a target
and once more. A cancellation after so many polls or later is not noticed; an earlier one is obeyed
at its first poll, and leaves the marker alone, with nothing rendered. -/
theorem run_afterPolls (describable : host.Describable) (render : Renderer σ) (nodes : List ν)
    (state : σ) (polls : Nat) :
    ∃ targets result, (collectTargets host .never nodes (.start state)).1 = .ok targets ∧
      (run host render .never nodes state).1 = .ok result ∧ result.cancelled = false ∧
      renderings host render .never nodes state = (if result.descriptors = [] then 0 else 1) ∧
      (nodes.length + (targets.map host.key).toFinset.card + 1 ≤ polls →
        run host render (.afterPolls polls) nodes state = run host render .never nodes state ∧
        (run host render (.afterPolls polls) nodes state).2.polls =
          nodes.length + (targets.map host.key).toFinset.card + 1) ∧
      (polls < nodes.length + (targets.map host.key).toFinset.card + 1 →
        (run host render (.afterPolls polls) nodes state).1 =
          .ok ⟨[Package.markerUnit], [], true⟩ ∧
        (run host render (.afterPolls polls) nodes state).2.polls = polls + 1 ∧
        renderings host render (.afterPolls polls) nodes state = 0) := by
  obtain ⟨targets, descriptors, q, collected, paced, count⟩ :=
    describe_paced describable nodes (.start state)
  have start : (Progress.start state).polls = 0 := rfl
  obtain ⟨result, r, ran, rendered, quiet, finished, same⟩ :=
    run_of_described render paced.uncancelled
  refine ⟨targets, result, collected, by rw [ran], finished, ?_, ?_, ?_⟩
  · rw [renderings_of_described render (by rw [paced.uncancelled]), same]
  · intro enough
    obtain ⟨late, lateEnd, lateRan, lateRendered, -⟩ :=
      run_of_described render (paced.inTime polls (by omega))
    obtain ⟨sameResult, rfl⟩ := Prod.mk.inj (rendered.symm.trans lateRendered)
    obtain rfl := Except.ok.inj sameResult
    rw [lateRan, ran]
    exact ⟨rfl, by simp only [quiet]; omega⟩
  · intro early
    obtain ⟨left, cancelled, made⟩ := paced.late polls (by omega) (by omega)
    rw [run_of_cancelled cancelled]
    exact ⟨rfl, made, renderings_of_cancelled render (by rw [cancelled])⟩

end

/-- Of the four sample nodes three are marked, with two keys, which takes seven polls. -/
theorem run_afterPolls_sample :
    sampleHost.Describable ∧
      (collectTargets sampleHost .never sampleNodes (.start ())).1 =
        .ok (sampleNodes.filter (·.kind = .enum)) ∧
      run sampleHost freshRenderer (.afterPolls 7) sampleNodes () =
        run sampleHost freshRenderer .never sampleNodes () ∧
      (run sampleHost freshRenderer (.afterPolls 7) sampleNodes ()).2.polls = 7 ∧
      (run sampleHost freshRenderer (.afterPolls 6) sampleNodes ()).1 =
        .ok ⟨[Package.markerUnit], [], true⟩ ∧
      renderings sampleHost freshRenderer (.afterPolls 6) sampleNodes () = 0 := by
  have describable : sampleHost.Describable := by
    apply listedHost_describable
    intro entry listed
    simp only [List.mem_cons, List.not_mem_nil, or_false] at listed
    rcases listed with rfl | rfl
    · exact ⟨_, Descriptor.make_ok (by decide)⟩
    · exact ⟨_, Descriptor.make_ok (by decide)⟩
  have collected : (collectTargets sampleHost .never sampleNodes (.start ())).1 =
      .ok (sampleNodes.filter (·.kind = .enum)) := by rfl
  have keys : ((sampleNodes.filter (·.kind = .enum)).map sampleHost.key).toFinset.card = 2 := by
    decide +kernel
  obtain ⟨targets, -, targets_ok, -, -, -, late, -⟩ :=
    run_afterPolls describable freshRenderer sampleNodes () 7
  obtain ⟨others, -, others_ok, -, -, -, -, early⟩ :=
    run_afterPolls describable freshRenderer sampleNodes () 6
  obtain rfl := Except.ok.inj (targets_ok.symm.trans collected)
  obtain rfl := Except.ok.inj (others_ok.symm.trans collected)
  rw [keys] at late early
  obtain ⟨unnoticed, all⟩ := late (by decide)
  obtain ⟨cancelled, -, unrendered⟩ := early (by decide)
  exact ⟨describable, collected, unnoticed, all, cancelled, unrendered⟩

end EnumLookup.Generation
