import EnumLookup.Proofs.Generation.Interruption
import EnumLookup.Proofs.Generation.Recording
import Mathlib

/-!
Names that are declared more than once. A host is asked about one node of each key, in the order of
the keys. Of the types that it answers with the last one of each name is described, and the
descriptors stand in the order of these last ones: one that replaces another does not take its
place. Nothing is asked of the host here, whose answers may change from question to question.
-/
namespace EnumLookup

def Key.Before (a b : Key) : Prop := a.le b = true ∧ a ≠ b

theorem Key.Before.not_le {a b : Key} (before : a.Before b) : ¬ b.le a = true :=
  fun after => before.2 (Key.le_antisymm before.1 after)

namespace Generation

open List

variable {ν σ : Type}

/-- The types that a host answers with for nodes asked one after another, at the keys of the nodes.
A node without a type or with an error is passed over. -/
def answered (host : Host ν σ) : List ν → σ → List (Key × EnumType)
  | [], _ => []
  | node :: rest, state =>
    let (answer, state) := host.declaredType node state
    ((answerOf answer).map (host.key node, ·)).toList ++ answered host rest state

/-- No entry with the name of this one has a greater key. -/
def IsLast (entries : List (Key × EnumType)) (entry : Key × EnumType) : Prop :=
  ∀ other ∈ entries, other.2.qualifiedName = entry.2.qualifiedName → other.1.le entry.1 = true

instance (entries : List (Key × EnumType)) : DecidablePred (IsLast entries) := fun _ =>
  inferInstanceAs (Decidable (∀ other ∈ entries, _ → _ = true))

/-- The descriptors are those of the last entries of their names, in the order of the keys. -/
structure DescribesLast (entries : List (Key × EnumType)) (descriptors : List Descriptor) :
    Prop where
  ordered : (entries.map (·.1)).Pairwise Key.Before
  last : Forall₂ (fun (entry : Key × EnumType) d => d.qualifiedName = entry.2.qualifiedName ∧
    d.module = entry.2.module ∧ d.members = entry.2.constants)
    (entries.filter (IsLast entries)) descriptors
  once : (descriptors.map (·.qualifiedName)).Nodup
  names : ∀ name, name ∈ descriptors.map (·.qualifiedName) ↔
    name ∈ entries.map (·.2.qualifiedName)

variable {host : Host ν σ} {entry : Key × EnumType} {rest entries : List (Key × EnumType)}

/-- A node is kept when it is the first one of its key. -/
theorem mem_distinct_iff {nodes : List ν} {node : ν} :
    node ∈ distinct host nodes ↔
      nodes.find? (fun other => host.key other = host.key node) = some node := by
  induction nodes with
  | nil => simp [distinct]
  | cons first rest ih =>
    by_cases same : host.key first = host.key node
    · simp [distinct, same, eq_comm]
    · have other : node ≠ first := fun equal => same (congrArg host.key equal.symm)
      simp [distinct, same, other, Ne.symm same, ih]

theorem deduplicate_ordered (host : Host ν σ) (nodes : List ν) :
    ((deduplicate host nodes).map host.key).Pairwise Key.Before := by
  have different : ((deduplicate host nodes).map host.key).Nodup :=
    (deduplicate_keys_perm host nodes).nodup_iff.mpr (distinct_keys_nodup host nodes)
  exact (deduplicate_sorted host nodes).and different

theorem answered_cons (host : Host ν σ) (node : ν) (rest : List ν) (state : σ) :
    answered host (node :: rest) state =
      ((answerOf (host.declaredType node state).1).map (host.key node, ·)).toList ++
        answered host rest (host.declaredType node state).2 := rfl

theorem answered_keys (host : Host ν σ) (nodes : List ν) (state : σ) :
    ((answered host nodes state).map (·.1)).Sublist (nodes.map host.key) := by
  induction nodes generalizing state with
  | nil => exact nil_sublist _
  | cons node rest ih =>
    rw [answered_cons]
    cases answerOf (host.declaredType node state).1 with
    | none => exact (ih _).cons _
    | some type => exact (ih _).cons_cons _

theorem extractNode_answers (host : Host ν σ) (descriptors : List Descriptor) (node : ν)
    (p : Progress σ) :
    (extractNode host descriptors node p).1 = (describeTypes descriptors
        (answerOf (host.declaredType node p.host).1).toList).mapError .invalid ∧
      (extractNode host descriptors node p).2.host = (host.declaredType node p.host).2 := by
  rw [extractNode, Step.ask_bind]
  rcases host.declaredType node p.host with ⟨error | type, state⟩
  · exact ⟨rfl, rfl⟩
  · cases type with
    | none => exact ⟨rfl, rfl⟩
    | some type =>
      simp only [answerOf, Option.toList_some, describeTypes]
      cases type.descriptor <;> exact ⟨rfl, rfl⟩

/-- Nodes are described by their types alone, as these are answered in the course of the run. -/
theorem extractNodes_answered (host : Host ν σ) (nodes : List ν) (descriptors : List Descriptor)
    (p : Progress σ) :
    (extractNodes host .never descriptors nodes p).1 =
      (describeTypes descriptors ((answered host nodes p.host).map (·.2))).mapError .invalid := by
  induction nodes generalizing descriptors p with
  | nil => rfl
  | cons node rest ih =>
    obtain ⟨outcome, left⟩ := extractNode_answers host descriptors node { p with polls := p.polls + 1 }
    change (Step.bind (extractNode host descriptors node)
      (fun more => extractNodes host .never more rest) { p with polls := p.polls + 1 }).1 = _
    rw [answered_cons, ← left, Step.bind]
    revert outcome
    rcases extractNode host descriptors node { p with polls := p.polls + 1 } with ⟨first, q⟩
    rintro rfl
    cases answerOf (host.declaredType node p.host).1 with
    | none => exact ih descriptors q
    | some type =>
      simp only [Option.toList_some, Option.map_some, singleton_append, map_cons, describeTypes]
      cases type.descriptor with
      | error error => rfl
      | ok descriptor => exact ih (record descriptors descriptor) q

/-- In front of entries with greater keys, an entry is the last one of its name unless one of them
has the name. -/
theorem filter_isLast_cons (before : ∀ other ∈ rest, entry.1.Before other.1) :
    (entry :: rest).filter (IsLast (entry :: rest)) =
      if entry.2.qualifiedName ∈ rest.map (·.2.qualifiedName) then rest.filter (IsLast rest)
      else entry :: rest.filter (IsLast rest) := by
  have others : rest.filter (IsLast (entry :: rest)) = rest.filter (IsLast rest) := by
    apply filter_congr
    intro other member
    apply decide_eq_decide.mpr
    rw [IsLast, forall_mem_cons]
    exact and_iff_right fun _ => (before other member).1
  have itself : IsLast (entry :: rest) entry ↔
      entry.2.qualifiedName ∉ rest.map (·.2.qualifiedName) := by
    constructor
    · intro last again
      obtain ⟨other, member, same⟩ := mem_map.mp again
      exact (before other member).not_le (last other (mem_cons_of_mem _ member) same)
    · intro new other member same
      rcases mem_cons.mp member with rfl | inRest
      · simpa using Key.le_total other.1 other.1
      · exact absurd (mem_map.mpr ⟨other, inRest, same⟩) new
  by_cases again : entry.2.qualifiedName ∈ rest.map (·.2.qualifiedName)
  · rw [if_pos again, filter_cons_of_neg (by simpa [itself] using again), others]
  · rw [if_neg again, filter_cons_of_pos (by simpa [itself] using again), others]

/-- What is recorded of entries in the order of their keys: descriptors from before whose names do
not come again, and then those of the last entries. -/
theorem describeTypes_last (ordered : (entries.map (·.1)).Pairwise Key.Before)
    (valid : ∀ entry ∈ entries, ∃ d, entry.2.descriptor = .ok d) (descriptors : List Descriptor) :
    ∃ last, describeTypes descriptors (entries.map (·.2)) = .ok (descriptors.filter
        (fun d => d.qualifiedName ∉ entries.map (·.2.qualifiedName)) ++ last) ∧
      Forall₂ (fun entry d => entry.2.descriptor = .ok d) (entries.filter (IsLast entries))
        last := by
  induction entries generalizing descriptors with
  | nil => exact ⟨[], by simp [describeTypes], .nil⟩
  | cons entry rest ih =>
    obtain ⟨before, ordered⟩ := pairwise_cons.mp ordered
    obtain ⟨⟨d, ok⟩, valid⟩ := forall_mem_cons.mp valid
    obtain ⟨last, described, same⟩ := ih ordered valid (record descriptors d)
    have named : d.qualifiedName = entry.2.qualifiedName := (descriptor_ok ok).1
    have earlier : (descriptors.filter (·.qualifiedName ≠ d.qualifiedName)).filter
          (fun d => d.qualifiedName ∉ rest.map (·.2.qualifiedName)) =
        descriptors.filter
          (fun d => d.qualifiedName ∉ (entry :: rest).map (·.2.qualifiedName)) := by
      rw [filter_filter]
      apply filter_congr
      intro other _
      simp only [named, map_cons, mem_cons, not_or, Bool.decide_and, Bool.and_comm]
    rw [filter_isLast_cons fun other member => before _ (mem_map_of_mem member)]
    have step : describeTypes descriptors ((entry :: rest).map (·.2)) =
        describeTypes (record descriptors d) (rest.map (·.2)) := by
      simp only [map_cons, describeTypes, ok]
    rw [step, described, record, filter_append, earlier, append_assoc]
    by_cases again : entry.2.qualifiedName ∈ rest.map (·.2.qualifiedName)
    · rw [if_pos again]
      exact ⟨last, by simp only [filter_singleton, named, again]; rfl, same⟩
    · rw [if_neg again]
      exact ⟨d :: last, by simp only [filter_singleton, named, again]; rfl, .cons ok same⟩

/-- Of the types answered for the nodes, the last one of each name is described, and nothing else.
The nodes that are asked about are the first ones of their keys, in the order of the keys. -/
theorem extract_describes_last (host : Host ν σ) (targets : List ν) (p : Progress σ)
    (valid : ∀ entry ∈ answered host (deduplicate host targets) p.host,
      ∃ d, entry.2.descriptor = .ok d) :
    ((deduplicate host targets).map host.key).Pairwise Key.Before ∧
      (∀ node, node ∈ deduplicate host targets ↔
        targets.find? (fun other => host.key other = host.key node) = some node) ∧
      ∃ descriptors, (extract host .never targets p).1 = .ok descriptors ∧
        DescribesLast (answered host (deduplicate host targets) p.host) descriptors := by
  have asked := deduplicate_ordered host targets
  have ordered := asked.sublist (answered_keys host _ p.host)
  obtain ⟨descriptors, described, last⟩ := describeTypes_last ordered valid []
  refine ⟨asked, fun node => mem_mergeSort.trans mem_distinct_iff, descriptors, ?_, ordered, ?_,
    describeTypes_names described nodup_nil, ?_⟩
  · rw [extract, extractNodes_answered, described]
    rfl
  · exact last.imp fun entry d ok => descriptor_ok ok
  · intro name
    constructor
    · intro member
      obtain ⟨d, inside, rfl⟩ := mem_map.mp member
      rcases describeTypes_origin described inside with none | ⟨type, isType, ok⟩
      · cases none
      · obtain ⟨entry, isEntry, rfl⟩ := mem_map.mp isType
        exact mem_map.mpr ⟨entry, isEntry, (descriptor_ok ok).1.symm⟩
    · intro member
      obtain ⟨entry, isEntry, rfl⟩ := mem_map.mp member
      obtain ⟨d, inside, same⟩ := describeTypes_covers described (mem_map_of_mem isEntry)
      exact mem_map.mpr ⟨d, inside, same⟩

def reboundHost : Host Listed Unit :=
  listedHost [] [(⟨"m.py", 1, 0, "C"⟩, ⟨"m.C", "m", [⟨"A", true⟩]⟩),
    (⟨"m.py", 3, 0, "D"⟩, ⟨"m.D", "m", []⟩),
    (⟨"m.py", 5, 0, "C"⟩, ⟨"m.C", "m", [⟨"B", true⟩, ⟨"f", false⟩, ⟨"B", true⟩]⟩)]

def reboundNodes : List Listed :=
  [⟨⟨"m.py", 5, 0, "C"⟩, .enum, []⟩, ⟨⟨"m.py", 7, 0, "E"⟩, .enum, []⟩,
    ⟨⟨"m.py", 3, 0, "D"⟩, .enum, []⟩, ⟨⟨"m.py", 1, 0, "C"⟩, .enum, []⟩,
    ⟨⟨"m.py", 5, 0, "C"⟩, .plain, ["mark"]⟩]

/-- The later `C` is described, behind `D`. -/
theorem extract_describes_last_rebound :
    (∀ entry ∈ answered reboundHost (deduplicate reboundHost reboundNodes) (),
      ∃ d, entry.2.descriptor = .ok d) ∧
      ∃ d c, (extract reboundHost .never reboundNodes (.start ())).1 = .ok [d, c] ∧
        (d.qualifiedName = "m.D" ∧ d.module = "m" ∧ d.members = []) ∧
        c.qualifiedName = "m.C" ∧ c.module = "m" ∧ c.members = ["B", "B"] := by
  have entries : answered reboundHost (deduplicate reboundHost reboundNodes) () =
      [(⟨"m.py", 1, 0, "C"⟩, ⟨"m.C", "m", [⟨"A", true⟩]⟩),
        (⟨"m.py", 3, 0, "D"⟩, ⟨"m.D", "m", []⟩),
        (⟨"m.py", 5, 0, "C"⟩, ⟨"m.C", "m", [⟨"B", true⟩, ⟨"f", false⟩, ⟨"B", true⟩]⟩)] := by
    cbv
  have valid : ∀ entry ∈ answered reboundHost (deduplicate reboundHost reboundNodes) (),
      ∃ d, entry.2.descriptor = .ok d := by
    rw [entries]
    simp only [forall_mem_cons, not_mem_nil, false_imp_iff, implies_true, and_true]
    exact ⟨⟨_, Descriptor.make_ok (by decide)⟩, ⟨_, Descriptor.make_ok (by decide)⟩,
      ⟨_, Descriptor.make_ok (by decide)⟩⟩
  obtain ⟨-, -, descriptors, ran, describes⟩ :=
    extract_describes_last reboundHost reboundNodes (.start ()) valid
  have kept : (answered reboundHost (deduplicate reboundHost reboundNodes) ()).filter
      (IsLast (answered reboundHost (deduplicate reboundHost reboundNodes) ())) =
      [(⟨"m.py", 3, 0, "D"⟩, ⟨"m.D", "m", []⟩),
        (⟨"m.py", 5, 0, "C"⟩, ⟨"m.C", "m", [⟨"B", true⟩, ⟨"f", false⟩, ⟨"B", true⟩]⟩)] := by
    rw [entries]
    decide
  have last := kept ▸ describes.last
  cases last with
  | cons first last =>
    cases last with
    | cons second last =>
      cases last
      exact ⟨valid, _, _, ran, first, second⟩

end Generation

end EnumLookup
