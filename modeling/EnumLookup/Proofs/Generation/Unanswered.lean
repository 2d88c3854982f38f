import EnumLookup.Proofs.Generation.Agreement
import EnumLookup.Session
import Mathlib.Data.List.Forall2

/-!
Questions that end in an error. Such a question counts as one without an answer: a host that gives
no answer instead cannot be told apart by the result of a run, by its polls, or by the questions
that it asks about decorators. These are counted out: the decorators of one candidate after the
other, of each in the order of their indices, up to the first that is the marker.
-/
namespace EnumLookup.Generation

open List

variable {ν σ α β : Type}

/-- The host that gives no answer where this one ends in an error. -/
def Host.forgiving (host : Host ν σ) : Host ν σ where
  key := host.key
  kind := host.kind
  annotationCount := host.annotationCount
  annotationType node index state :=
    let (answer, state) := host.annotationType node index state
    (.ok (answerOf answer), state)
  declaredType node state :=
    let (answer, state) := host.declaredType node state
    (.ok (answerOf answer), state)

structure Call (ν : Type) where
  node : ν
  index : Nat
  answer : Except ResolutionError (Option String)

namespace Call

def place (call : Call ν) : ν × Nat := (call.node, call.index)

def FindsMarker (call : Call ν) : Prop := call.answer = .ok (some Package.markerFullName)

end Call

def Host.logged (host : Host ν σ) : Host ν (σ × List (Call ν)) :=
  { host.beside (List (Call ν)) with
    annotationType := fun node index (state, calls) =>
      let (answer, state) := host.annotationType node index state
      (answer, state, calls ++ [⟨node, index, answer⟩]) }

def Renderer.logged (render : Renderer σ) : Renderer (σ × List (Call ν)) :=
  fun descriptors => onFirst (render descriptors)

/-- The questions about decorators that a run asks, in their order. -/
def annotationCalls (host : Host ν σ) (render : Renderer σ) (cancellation : Cancellation)
    (nodes : List ν) (state : σ) : List (Call ν) :=
  (run host.logged render.logged cancellation nodes (state, [])).2.host.2

section Forgiving

variable (host : Host ν σ) (render : Renderer σ)

def SameCalls : σ × List (Call ν) → σ × List (Call ν) → Prop
  | (state, calls), (other, others) => state = other ∧ calls.map Call.place = others.map Call.place

theorem Host.forgiving_agrees : host.forgiving.Agrees Eq host where
  key _ := rfl
  kind _ := rfl
  annotationCount _ := rfl
  annotation := by
    rintro node index state _ rfl
    exact ⟨rfl, rfl⟩
  declared := by
    rintro node state _ rfl
    exact ⟨rfl, rfl⟩

theorem Host.forgiving_logged_agrees : host.forgiving.logged.Agrees SameCalls host.logged where
  key _ := rfl
  kind _ := rfl
  annotationCount _ := rfl
  annotation := by
    rintro node index ⟨state, calls⟩ ⟨_, others⟩ ⟨rfl, same⟩
    refine ⟨rfl, rfl, ?_⟩
    change (calls ++ [_]).map Call.place = (others ++ [_]).map Call.place
    rw [map_append, map_append, same]
    rfl
  declared := by
    rintro node ⟨state, calls⟩ ⟨_, others⟩ ⟨rfl, same⟩
    exact ⟨rfl, rfl, same⟩

/-- The record does not show in the answers. -/
theorem Host.logged_agrees : host.logged.Agrees (fun wide narrow => wide.1 = narrow) host where
  key _ := rfl
  kind _ := rfl
  annotationCount _ := rfl
  annotation := by
    rintro node index ⟨state, calls⟩ _ rfl
    exact ⟨rfl, rfl⟩
  declared := by
    rintro node ⟨state, calls⟩ _ rfl
    exact ⟨rfl, rfl⟩

end Forgiving

/-- From every state the step asks some questions about decorators, and these fit the way it ends. -/
def Asks (step : Step (σ × List (Call ν)) α) (property : Except Stop α → List (Call ν) → Prop) :
    Prop :=
  ∀ p, ∃ calls, (step p).2.host.2 = p.host.2 ++ calls ∧ property (step p).1 calls

def Silent (step : Step (σ × List (Call ν)) α) : Prop := Asks step fun _ calls => calls = []

namespace Asks

variable {step : Step (σ × List (Call ν)) α} {next : α → Step (σ × List (Call ν)) β}
  {property : Except Stop α → List (Call ν) → Prop}
  {whole : Except Stop β → List (Call ν) → Prop}

theorem pure {a : α} (holds : property (.ok a) []) :
    Asks (Pure.pure a : Step (σ × List (Call ν)) α) property :=
  fun _ => ⟨[], (append_nil _).symm, holds⟩

theorem bind (first : Asks step property)
    (stopped : ∀ reason calls, property (.error reason) calls → whole (.error reason) calls)
    (rest : ∀ a calls, property (.ok a) calls →
      Asks (next a) fun ended more => whole ended (calls ++ more)) :
    Asks (step >>= next) whole := by
  intro p
  obtain ⟨calls, recorded, holds⟩ := first p
  change ∃ calls, (Step.bind step next p).2.host.2 = p.host.2 ++ calls ∧
    whole (Step.bind step next p).1 calls
  revert recorded holds
  unfold Step.bind
  rcases step p with ⟨reason | a, q⟩
  · intro recorded holds
    exact ⟨calls, recorded, stopped reason calls holds⟩
  · intro recorded holds
    obtain ⟨more, recordedMore, holdsMore⟩ := rest a calls holds q
    exact ⟨calls ++ more, by rw [recordedMore, recorded, append_assoc], holdsMore⟩

theorem mono {other : Except Stop α → List (Call ν) → Prop} (asks : Asks step property)
    (weaker : ∀ ended calls, property ended calls → other ended calls) : Asks step other := by
  intro p
  obtain ⟨calls, recorded, holds⟩ := asks p
  exact ⟨calls, recorded, weaker _ _ holds⟩

theorem report (event : Event) (asks : Asks step property) :
    Asks (do Step.report event; step) property :=
  fun p => asks { p with events := p.events ++ [event] }

theorem poll {cancellation : Cancellation}
    (requested : (∃ poll, cancellation poll = true) → property (.error .cancelled) [])
    (asks : Asks step property) : Asks (do Step.poll cancellation; step) property := by
  intro p
  change ∃ calls, (Step.bind (Step.poll cancellation) (fun _ => step) p).2.host.2 =
    p.host.2 ++ calls ∧ property (Step.bind (Step.poll cancellation) (fun _ => step) p).1 calls
  unfold Step.bind Step.poll
  cases now : cancellation p.polls with
  | true => exact ⟨[], (append_nil _).symm, requested ⟨p.polls, now⟩⟩
  | false => exact asks { p with polls := p.polls + 1 }

/-- The questions of a step behind a silent one are those of both. -/
theorem silent_bind (first : Silent step)
    (stopped : ∀ reason, whole (.error reason) []) (rest : ∀ a, Asks (next a) whole) :
    Asks (step >>= next) whole := by
  refine first.bind ?_ ?_
  · rintro reason _ rfl
    exact stopped reason
  · rintro a _ rfl
    exact rest a

end Asks

namespace Silent

theorem pure (a : α) : Silent (Pure.pure a : Step (σ × List (Call ν)) α) := Asks.pure rfl

theorem stop (reason : Stop) : Silent (Step.stop reason : Step (σ × List (Call ν)) α) :=
  fun _ => ⟨[], (append_nil _).symm, rfl⟩

theorem report (event : Event) : Silent (Step.report event : Step (σ × List (Call ν)) PUnit) :=
  fun _ => ⟨[], (append_nil _).symm, rfl⟩

theorem poll (cancellation : Cancellation) :
    Silent (Step.poll cancellation : Step (σ × List (Call ν)) PUnit) :=
  fun _ => ⟨[], (append_nil _).symm, rfl⟩

theorem ask (question : σ → α × σ) :
    Silent (Step.ask (onFirst question) : Step (σ × List (Call ν)) α) :=
  fun _ => ⟨[], (append_nil _).symm, rfl⟩

theorem bind {step : Step (σ × List (Call ν)) α} {next : α → Step (σ × List (Call ν)) β}
    (first : Silent step) (rest : ∀ a, Silent (next a)) : Silent (step >>= next) :=
  Asks.silent_bind first (fun _ => rfl) rest

end Silent

section Asked

variable (host : Host ν σ) (cancellation : Cancellation)

theorem extractNode_silent (descriptors : List Descriptor) (node : ν) :
    Silent (extractNode host.logged descriptors node) := by
  refine Silent.bind (Silent.ask (host.declaredType node)) fun answer => ?_
  rcases answer with error | type
  · exact Silent.bind (Silent.report _) fun _ => Silent.pure _
  · cases type with
    | none => exact Silent.bind (Silent.report _) fun _ => Silent.pure _
    | some type =>
      dsimp only
      cases type.descriptor with
      | error error => exact Silent.stop _
      | ok descriptor => exact Silent.pure _

theorem extractNodes_silent (descriptors : List Descriptor) (nodes : List ν) :
    Silent (extractNodes host.logged cancellation descriptors nodes) := by
  induction nodes generalizing descriptors with
  | nil => exact Silent.pure _
  | cons node rest ih =>
    refine Silent.bind (Silent.poll cancellation) fun _ => ?_
    exact Silent.bind (extractNode_silent host descriptors node) ih

theorem resultOf_silent (render : Renderer σ) (descriptors : List Descriptor) :
    Silent (resultOf (render.logged : Renderer (σ × List (Call ν))) descriptors) := by
  unfold resultOf
  split
  · exact Silent.pure _
  · exact Silent.bind (Silent.ask (render descriptors)) fun text => Silent.pure _

/-- The questions asked about the decorators of a node with these indices: one for each of them in
order, up to the first one that is answered with the marker. -/
structure Scan (node : ν) (indices : List Nat) (calls : List (Call ν)) : Prop where
  places : calls.map Call.place = (indices.take calls.length).map (node, ·)
  answered : ∀ call ∈ calls, ∃ state, (host.annotationType node call.index state).1 = call.answer
  missed : ∀ call ∈ calls.dropLast, ¬call.FindsMarker
  ends : calls.length = indices.length ∨ ∃ call ∈ calls.getLast?, call.FindsMarker

variable {host}

theorem Scan.nil (node : ν) : Scan host node [] [] := by
  constructor <;> simp

variable {node : ν} {index : Nat} {indices : List Nat} {calls : List (Call ν)}
  {answer : Except ResolutionError (Option String)}

theorem Scan.found (answered : ∃ state, (host.annotationType node index state).1 = answer)
    (marker : answer = .ok (some Package.markerFullName)) :
    Scan host node (index :: indices) [⟨node, index, answer⟩] := by
  constructor
  · rfl
  · simpa using answered
  · simp
  · exact .inr ⟨_, rfl, marker⟩

theorem Scan.cons (answered : ∃ state, (host.annotationType node index state).1 = answer)
    (other : answer ≠ .ok (some Package.markerFullName)) (rest : Scan host node indices calls) :
    Scan host node (index :: indices) (⟨node, index, answer⟩ :: calls) := by
  constructor
  · simp [Call.place, rest.places]
  · exact forall_mem_cons.mpr ⟨answered, rest.answered⟩
  · cases calls with
    | nil => simp
    | cons call more => exact forall_mem_cons.mpr ⟨other, rest.missed⟩
  · rcases rest.ends with all | ⟨call, last, marker⟩
    · exact .inl (congrArg (· + 1) all)
    · refine .inr ⟨call, ?_, marker⟩
      cases calls with
      | nil => cases last
      | cons first more => exact last

/-- A question that is recorded, and what follows its answer. -/
theorem asks_annotation {next : Except ResolutionError (Option String) → Step _ α}
    {property : Except Stop α → List (Call ν) → Prop}
    (rest : ∀ answer, (∃ state, (host.annotationType node index state).1 = answer) →
      Asks (next answer) fun ended calls => property ended (⟨node, index, answer⟩ :: calls)) :
    Asks (Step.ask (host.logged.annotationType node index) >>= next) property := by
  intro p
  have answered : ∃ state, (host.annotationType node index state).1 =
      (host.annotationType node index p.host.1).1 := ⟨_, rfl⟩
  obtain ⟨calls, recorded, holds⟩ := rest _ answered
    { p with host := (host.logged.annotationType node index p.host).2 }
  refine ⟨_ :: calls, recorded.trans ?_, holds⟩
  exact (append_cons ..).symm

theorem hasMarkerAmong_asks (host : Host ν σ) (node : ν) (indices : List Nat) :
    Asks (hasMarkerAmong host.logged node indices) fun ended calls =>
      (∃ found, ended = .ok found) ∧ Scan host node indices calls := by
  induction indices with
  | nil => exact Asks.pure ⟨⟨false, rfl⟩, Scan.nil node⟩
  | cons index rest ih =>
    refine asks_annotation fun answer answered => ?_
    have further (other : answer ≠ .ok (some Package.markerFullName)) :
        Asks (hasMarkerAmong host.logged node rest) fun ended calls =>
          (∃ found, ended = .ok found) ∧
            Scan host node (index :: rest) (⟨node, index, answer⟩ :: calls) :=
      ih.mono fun ended calls ⟨yields, scan⟩ => ⟨yields, scan.cons answered other⟩
    rcases answer with error | resolved
    · exact (further (by simp)).report _
    · by_cases marker : resolved = some Package.markerFullName
      · simp only [marker, if_true]
        exact Asks.pure ⟨⟨true, rfl⟩, Scan.found (marker ▸ answered) rfl⟩
      · simp only [marker, if_false]
        exact further (by simpa using marker)

def ScanEach (host : Host ν σ) (nodes : List ν) (groups : List (List (Call ν))) : Prop :=
  Forall₂ (fun node => Scan host node (range (host.annotationCount node)))
    (nodes.filter (isCandidate host)) groups

theorem ScanEach.append {nodes others : List ν} {groups more : List (List (Call ν))}
    (first : ScanEach host nodes groups) (rest : ScanEach host others more) :
    ScanEach host (nodes ++ others) (groups ++ more) := by
  unfold ScanEach
  rw [filter_append]
  exact rel_append first rest

/-- How the questions fit the nodes: they are those of the first nodes, and of all of them unless
the end is that of a cancelled run. -/
def Scans (host : Host ν σ) (cancellation : Cancellation) (nodes : List ν) (cancelled : Prop)
    (calls : List (Call ν)) : Prop :=
  ∃ seen groups, seen <+: nodes ∧ calls = groups.flatten ∧ ScanEach host seen groups ∧
    (seen = nodes ∨ cancelled ∧ ∃ poll, cancellation poll = true)

theorem Scans.cons {nodes : List ν} {groups : List (List (Call ν))} {cancelled : Prop}
    {cancellation : Cancellation} (first : ScanEach host [node] groups)
    (rest : Scans host cancellation nodes cancelled calls) :
    Scans host cancellation (node :: nodes) cancelled (groups.flatten ++ calls) := by
  obtain ⟨seen, more, begins, rfl, others, ends⟩ := rest
  refine ⟨node :: seen, groups ++ more, ?_, flatten_append.symm, first.append others, ?_⟩
  · exact (prefix_append_right_inj [node]).mpr begins
  · exact ends.imp (congrArg (node :: ·)) id

theorem Scans.mono {nodes : List ν} {cancelled other : Prop} {cancellation : Cancellation}
    (scans : Scans host cancellation nodes cancelled calls) (weaker : cancelled → other) :
    Scans host cancellation nodes other calls := by
  obtain ⟨seen, groups, begins, same, each, ends⟩ := scans
  exact ⟨seen, groups, begins, same, each, ends.imp id (And.imp_left weaker)⟩

/-- Silent steps behind the questions do not change what was asked. -/
theorem Asks.scans_bind {nodes : List ν} {cancellation : Cancellation} (before : List (Call ν))
    {step : Step (σ × List (Call ν)) α} {next : α → Step (σ × List (Call ν)) β}
    (first : Asks step fun ended calls =>
      Scans host cancellation nodes (ended = .error .cancelled) (before ++ calls))
    (rest : ∀ a, Silent (next a)) :
    Asks (step >>= next) fun ended calls =>
      Scans host cancellation nodes (ended = .error .cancelled) (before ++ calls) := by
  refine first.bind ?_ ?_
  · intro reason calls scans
    exact scans.mono fun cancelled => by rw [Except.error.inj cancelled]
  · intro a calls scans
    refine (rest a).mono ?_
    rintro ended _ rfl
    rw [append_nil]
    exact scans.mono fun cancelled => nomatch cancelled

theorem isTarget_asks (host : Host ν σ) (node : ν) :
    Asks (isTarget host.logged node) fun ended calls =>
      (∃ found, ended = .ok found) ∧
        ∃ groups, calls = groups.flatten ∧ ScanEach host [node] groups := by
  by_cases candidate : isCandidate host node = true
  · have same : isTarget host.logged node =
        hasMarkerAmong host.logged node (range (host.annotationCount node)) := if_pos candidate
    rw [same]
    refine (hasMarkerAmong_asks host node _).mono fun ended calls ⟨yields, scan⟩ => ?_
    refine ⟨yields, [calls], by simp, ?_⟩
    simpa [ScanEach, candidate] using scan
  · have same : isTarget host.logged node = Pure.pure false := if_neg candidate
    rw [same]
    refine Asks.pure ⟨⟨false, rfl⟩, [], rfl, ?_⟩
    simp [ScanEach, candidate]

theorem collectTargets_asks (host : Host ν σ) (cancellation : Cancellation) (nodes : List ν) :
    Asks (collectTargets host.logged cancellation nodes) fun ended calls =>
      Scans host cancellation nodes (ended = .error .cancelled) calls := by
  induction nodes with
  | nil => exact Asks.pure ⟨[], [], prefix_refl _, rfl, .nil, .inl rfl⟩
  | cons node rest ih =>
    refine Asks.poll (fun requested => ?_) (Asks.bind (isTarget_asks host node) ?_ ?_)
    · exact ⟨[], [], nil_prefix, rfl, .nil, .inr ⟨rfl, requested⟩⟩
    · rintro reason calls ⟨⟨found, ⟨⟩⟩, -⟩
    · rintro found _ ⟨-, groups, rfl, first⟩
      exact (ih.mono fun ended calls scans => Scans.cons first scans).scans_bind _ fun more =>
        Silent.pure _

theorem describe_asks (host : Host ν σ) (cancellation : Cancellation) (nodes : List ν) :
    Asks (describe host.logged cancellation nodes) fun ended calls =>
      Scans host cancellation nodes (ended = .error .cancelled) calls :=
  (collectTargets_asks host cancellation nodes).scans_bind [] fun _ =>
    Silent.bind (extractNodes_silent host cancellation [] _) fun _ =>
      Silent.bind (Silent.poll cancellation) fun _ => Silent.pure _

theorem run_logged (host : Host ν σ) (render : Renderer σ) (cancellation : Cancellation)
    (nodes : List ν) (state : σ) :
    (run host.logged render.logged cancellation nodes (state, [])).1 =
      (run host render cancellation nodes state).1 := by
  refine (run_agree host.logged_agrees ?_ cancellation nodes rfl).1
  rintro descriptors ⟨wide, calls⟩ _ rfl
  exact ⟨rfl, rfl⟩

theorem run_asks (host : Host ν σ) (render : Renderer σ) (cancellation : Cancellation)
    (nodes : List ν) (state : σ) :
    Scans host cancellation nodes
      ((run host render cancellation nodes state).1 = .ok cancelledResult)
      (annotationCalls host render cancellation nodes state) := by
  obtain ⟨calls, recorded, scans⟩ := (describe_asks host cancellation nodes).scans_bind
    [] (resultOf_silent render) (.start (state, []))
  have all : calls = _ := recorded.symm
  rw [← run_logged, annotationCalls]
  rw [all] at scans
  revert scans
  unfold run generate settle
  rcases (describe host.logged cancellation nodes >>= resultOf render.logged)
    (.start (state, [])) with ⟨(_ | error) | result, q⟩
  · exact fun scans => scans.mono fun _ => rfl
  · exact fun scans => scans.mono fun cancelled => nomatch cancelled
  · exact fun scans => scans.mono fun cancelled => nomatch cancelled

/-- An error and no answer are the same to a run: with either it has the same result after the same
number of polls, and asks the same questions about decorators in the same order. These are, for the
first nodes in their order that look like enums and have a decorator, the decorators from the first
one on up to the marker, or all. Only a cancelled run stops before the last node. -/
theorem run_forgiving (host : Host ν σ) (render : Renderer σ) (cancellation : Cancellation)
    (nodes : List ν) (state : σ) :
    (run host.forgiving render cancellation nodes state).1 =
        (run host render cancellation nodes state).1 ∧
      (run host.forgiving render cancellation nodes state).2.polls =
        (run host render cancellation nodes state).2.polls ∧
      (annotationCalls host.forgiving render cancellation nodes state).map Call.place =
        (annotationCalls host render cancellation nodes state).map Call.place ∧
      ∃ seen groups, seen <+: nodes ∧
        annotationCalls host render cancellation nodes state = groups.flatten ∧
        Forall₂ (fun node => Scan host node (range (host.annotationCount node)))
          (seen.filter (isCandidate host)) groups ∧
        (seen = nodes ∨ (run host render cancellation nodes state).1 = .ok cancelledResult ∧
          ∃ poll, cancellation poll = true) := by
  have renders : render.Agrees Eq render := by
    rintro descriptors state _ rfl
    exact ⟨rfl, rfl⟩
  have rendersLogged : (render.logged : Renderer (σ × List (Call ν))).Agrees SameCalls
      render.logged := by
    rintro descriptors ⟨state, calls⟩ ⟨_, others⟩ ⟨rfl, same⟩
    exact ⟨rfl, rfl, same⟩
  obtain ⟨result, -, polls⟩ :=
    run_agree host.forgiving_agrees renders cancellation nodes (rfl : state = state)
  have start : SameCalls (state, ([] : List (Call ν))) (state, []) := ⟨rfl, rfl⟩
  obtain ⟨-, ⟨-, places⟩, -⟩ :=
    run_agree host.forgiving_logged_agrees rendersLogged cancellation nodes start
  exact ⟨result, polls, places, run_asks host render cancellation nodes state⟩

end Asked

end EnumLookup.Generation
