import EnumLookup.Proofs.Generation.Uncancelled
import Mathlib.Data.List.Nodup

/-!
Which descriptors are recorded. Every type that is described has a descriptor of its name, every
descriptor is that of a type, and names are not repeated. No marked node is lost to another one,
as long as keys tell the nodes apart.
-/
namespace EnumLookup.Generation

variable {ν σ : Type}

theorem descriptor_ok {type : EnumType} {descriptor : Descriptor}
    (described : type.descriptor = .ok descriptor) :
    descriptor.qualifiedName = type.qualifiedName ∧ descriptor.module = type.module ∧
      descriptor.members = type.constants := by
  unfold EnumType.descriptor Descriptor.make at described
  split at described
  · cases described
  · split at described
    · cases described
      exact ⟨rfl, rfl, rfl⟩
    · cases described

theorem mem_record {descriptors : List Descriptor} {descriptor d : Descriptor} :
    d ∈ record descriptors descriptor ↔
      d = descriptor ∨ d ∈ descriptors ∧ d.qualifiedName ≠ descriptor.qualifiedName := by
  simp [record, or_comm]

theorem record_names {descriptors : List Descriptor} (descriptor : Descriptor)
    (different : (descriptors.map (·.qualifiedName)).Nodup) :
    ((record descriptors descriptor).map (·.qualifiedName)).Nodup := by
  unfold record
  rw [List.map_append, List.nodup_append]
  refine ⟨?_, by simp, ?_⟩
  · exact different.sublist (List.filter_sublist.map _)
  · intro name member other last same
    obtain ⟨d, kept, rfl⟩ := List.mem_map.mp member
    have differs := (List.mem_filter.mp kept).2
    rw [List.map_singleton, List.mem_singleton] at last
    subst last
    simp [same] at differs

section

variable {descriptors out : List Descriptor} {types : List EnumType}

theorem describeTypes_names (described : describeTypes descriptors types = .ok out)
    (different : (descriptors.map (·.qualifiedName)).Nodup) :
    (out.map (·.qualifiedName)).Nodup := by
  induction types generalizing descriptors with
  | nil =>
    cases described
    exact different
  | cons type rest ih =>
    unfold describeTypes at described
    split at described
    · cases described
    · next descriptor _ => exact ih described (record_names descriptor different)

/-- Every descriptor is that of a type, or was there before. -/
theorem describeTypes_origin (described : describeTypes descriptors types = .ok out)
    {d : Descriptor} (member : d ∈ out) :
    d ∈ descriptors ∨ ∃ type ∈ types, type.descriptor = .ok d := by
  induction types generalizing descriptors with
  | nil =>
    cases described
    exact .inl member
  | cons type rest ih =>
    unfold describeTypes at described
    split at described
    · cases described
    · next descriptor ok =>
      rcases ih described with before | ⟨other, inRest, other_ok⟩
      · rcases mem_record.mp before with rfl | ⟨before, -⟩
        · exact .inr ⟨type, List.mem_cons_self .., ok⟩
        · exact .inl before
      · exact .inr ⟨other, List.mem_cons_of_mem _ inRest, other_ok⟩

/-- A name that is recorded stays. -/
theorem describeTypes_keeps (described : describeTypes descriptors types = .ok out) {name : String}
    (known : ∃ d ∈ descriptors, d.qualifiedName = name) : ∃ d ∈ out, d.qualifiedName = name := by
  induction types generalizing descriptors with
  | nil =>
    cases described
    exact known
  | cons type rest ih =>
    unfold describeTypes at described
    split at described
    · cases described
    · next descriptor _ =>
      refine ih described ?_
      obtain ⟨d, before, rfl⟩ := known
      by_cases same : d.qualifiedName = descriptor.qualifiedName
      · exact ⟨descriptor, mem_record.mpr (.inl rfl), same.symm⟩
      · exact ⟨d, mem_record.mpr (.inr ⟨before, same⟩), rfl⟩

theorem describeTypes_covers (described : describeTypes descriptors types = .ok out)
    {type : EnumType} (member : type ∈ types) :
    ∃ d ∈ out, d.qualifiedName = type.qualifiedName := by
  induction types generalizing descriptors with
  | nil => cases member
  | cons first rest ih =>
    unfold describeTypes at described
    split at described
    · cases described
    · next descriptor ok =>
      rcases List.mem_cons.mp member with rfl | inRest
      · exact describeTypes_keeps described
          ⟨descriptor, mem_record.mpr (.inl rfl), (descriptor_ok ok).1⟩
      · exact ih described inRest

theorem describeTypes_ok (descriptors : List Descriptor)
    (valid : ∀ type ∈ types, ∃ d, type.descriptor = .ok d) :
    ∃ out, describeTypes descriptors types = .ok out := by
  induction types generalizing descriptors with
  | nil => exact ⟨descriptors, rfl⟩
  | cons type rest ih =>
    obtain ⟨descriptor, ok⟩ := valid type (List.mem_cons_self ..)
    obtain ⟨out, rest_ok⟩ := ih (record descriptors descriptor)
      fun other inRest => valid other (List.mem_cons_of_mem _ inRest)
    exact ⟨out, by simp only [describeTypes, ok, rest_ok]⟩

end

variable {host : Host ν σ} {answers : Answers ν} {nodes : List ν} {node : ν}

theorem mem_of_mem_distinct (member : node ∈ distinct host nodes) : node ∈ nodes := by
  induction nodes with
  | nil => exact member
  | cons first rest ih =>
    rcases List.mem_cons.mp member with rfl | kept
    · exact List.mem_cons_self ..
    · exact List.mem_cons_of_mem _ (ih (List.mem_filter.mp kept).1)

/-- A node whose key no other one has is kept. -/
theorem mem_distinct (member : node ∈ nodes)
    (alone : ∀ other ∈ nodes, host.key other = host.key node → other = node) :
    node ∈ distinct host nodes := by
  induction nodes with
  | nil => exact member
  | cons first rest ih =>
    by_cases same : host.key first = host.key node
    · rw [alone first (List.mem_cons_self ..) same]
      exact List.mem_cons_self ..
    · have inRest : node ∈ rest := by
        rcases List.mem_cons.mp member with rfl | inRest
        · exact absurd rfl same
        · exact inRest
      have kept := ih inRest fun other inRest => alone other (List.mem_cons_of_mem _ inRest)
      exact List.mem_cons_of_mem _ (List.mem_filter.mpr ⟨kept, by simpa using Ne.symm same⟩)

theorem mem_of_mem_chosen (member : node ∈ chosen host answers nodes) :
    node ∈ nodes ∧ isMarked host answers node = true :=
  List.mem_filter.mp (mem_of_mem_distinct (List.mem_mergeSort.mp member))

theorem mem_chosen (member : node ∈ nodes) (marked : isMarked host answers node = true)
    (alone : ∀ other ∈ nodes, host.key other = host.key node → other = node) :
    node ∈ chosen host answers nodes := by
  refine List.mem_mergeSort.mpr (mem_distinct (List.mem_filter.mpr ⟨member, marked⟩) ?_)
  intro other kept same
  exact alone other (List.mem_filter.mp kept).1 same

/-- Where names are not repeated, a name selects the one descriptor that has it. -/
theorem filter_name {descriptors : List Descriptor} {d : Descriptor}
    (names : (descriptors.map (·.qualifiedName)).Nodup) (member : d ∈ descriptors) :
    descriptors.filter (·.qualifiedName = d.qualifiedName) = [d] := by
  induction descriptors with
  | nil => cases member
  | cons first rest ih =>
    obtain ⟨new, names⟩ := List.nodup_cons.mp names
    rcases List.mem_cons.mp member with rfl | inRest
    · have none : rest.filter (·.qualifiedName = d.qualifiedName) = [] := by
        rw [List.filter_eq_nil_iff]
        intro other inRest same
        exact new (List.mem_map.mpr ⟨other, inRest, of_decide_eq_true same⟩)
      rw [List.filter_cons_of_pos (by simp), none]
    · have differs : first.qualifiedName ≠ d.qualifiedName :=
        fun same => new (List.mem_map.mpr ⟨d, inRest, same.symm⟩)
      rw [List.filter_cons_of_neg (by simpa using differs), ih names inRest]

/-- The result of a run that described the marked nodes: every descriptor is that of the type of a
marked node, and every marked node with a type has a descriptor of its name. -/
structure Describes (host : Host ν σ) (answers : Answers ν) (nodes : List ν) (result : Result) :
    Prop where
  finished : result.cancelled = false
  names : (result.descriptors.map (·.qualifiedName)).Nodup
  origin : ∀ d ∈ result.descriptors, ∃ node ∈ nodes, isMarked host answers node = true ∧
    ∃ type, answers.declared node = some type ∧ type.descriptor = .ok d
  covers : ∀ node ∈ nodes, isMarked host answers node = true → ∀ type,
    answers.declared node = some type →
      ∃ d ∈ result.descriptors, d.qualifiedName = type.qualifiedName

theorem freshResult_descriptors (descriptors : List Descriptor) :
    (freshResult descriptors).descriptors = descriptors := by
  unfold freshResult
  by_cases empty : descriptors.isEmpty = true
  · simp [List.isEmpty_iff.mp empty]
  · simp [empty]

theorem freshResult_cancelled (descriptors : List Descriptor) :
    (freshResult descriptors).cancelled = false := by
  unfold freshResult
  split <;> rfl

/-- A run that nobody cancels describes the marked nodes, if types have descriptors and keys tell
the nodes apart. -/
theorem run_describes {keeps : σ → Prop} (gives : host.Gives keeps answers)
    (valid : ∀ node ∈ nodes, ∀ type, answers.declared node = some type →
      ∃ d, type.descriptor = .ok d) (keys : (nodes.map host.key).Nodup) {state : σ}
    (kept : keeps state) :
    ∃ result, (run host freshRenderer .never nodes state).1 = .ok result ∧
      Describes host answers nodes result := by
  have alone : ∀ node ∈ nodes, ∀ other ∈ nodes, host.key other = host.key node → other = node :=
    fun node member other otherMember same =>
      List.inj_on_of_nodup_map keys otherMember member same
  obtain ⟨out, described⟩ : ∃ out, describeTypes []
      ((chosen host answers nodes).filterMap answers.declared) = .ok out := by
    refine describeTypes_ok [] ?_
    intro type member
    obtain ⟨node, picked, declared⟩ := List.mem_filterMap.mp member
    exact valid node (mem_of_mem_chosen picked).1 type declared
  refine ⟨freshResult out, by rw [run_never gives nodes kept, described]; rfl, ?_⟩
  refine ⟨freshResult_cancelled out, ?_, ?_, ?_⟩ <;> rw [freshResult_descriptors]
  · exact describeTypes_names described List.nodup_nil
  · intro d member
    rcases describeTypes_origin described member with before | ⟨type, typeMember, ok⟩
    · cases before
    · obtain ⟨node, picked, declared⟩ := List.mem_filterMap.mp typeMember
      obtain ⟨inNodes, marked⟩ := mem_of_mem_chosen picked
      exact ⟨node, inNodes, marked, type, declared, ok⟩
  · intro node member marked type declared
    have picked := mem_chosen member marked (alone node member)
    exact describeTypes_covers described (List.mem_filterMap.mpr ⟨node, picked, declared⟩)

end EnumLookup.Generation
