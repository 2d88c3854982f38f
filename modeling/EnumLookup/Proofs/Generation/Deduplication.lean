import EnumLookup.Proofs.Generation.Uncancelled
import Mathlib.Data.List.Nodup
import Mathlib.Data.Finset.Card
import Mathlib.Logic.Function.Basic

/-!
Repeated and reordered nodes. One node of each key is kept, and the kept nodes are put in the order
of their keys, so only the set of keys can be seen in what is kept. Which node of a key is kept
depends on the order of the reports, but the types of nodes with one key are the same.
-/
namespace EnumLookup.Generation

variable {ν σ : Type} {host : Host ν σ} {nodes others : List ν}

theorem mem_distinct_keys {key : Key} :
    key ∈ (distinct host nodes).map host.key ↔ key ∈ nodes.map host.key := by
  induction nodes with
  | nil => rfl
  | cons first rest ih =>
    simp only [List.mem_map] at ih
    by_cases same : key = host.key first
    · simp [distinct, same]
    · simp only [distinct, List.map_cons, List.mem_cons, same, false_or, List.mem_map,
        List.mem_filter, decide_eq_true_eq, ← ih]
      constructor
      · rintro ⟨node, ⟨member, -⟩, rfl⟩
        exact ⟨node, member, rfl⟩
      · rintro ⟨node, member, rfl⟩
        exact ⟨node, ⟨member, same⟩, rfl⟩

theorem distinct_keys_nodup (host : Host ν σ) (nodes : List ν) :
    ((distinct host nodes).map host.key).Nodup := by
  induction nodes with
  | nil => exact List.nodup_nil
  | cons first rest ih =>
    refine List.nodup_cons.mpr ⟨?_, ih.sublist (List.filter_sublist.map _)⟩
    intro again
    obtain ⟨node, kept, same⟩ := List.mem_map.mp again
    have differs := (List.mem_filter.mp kept).2
    simp [same] at differs

/-- As many nodes are kept as there are keys. -/
theorem length_deduplicate (host : Host ν σ) (nodes : List ν) :
    (deduplicate host nodes).length = (nodes.map host.key).toFinset.card := by
  have sameKeys :
      (nodes.map host.key).toFinset = ((distinct host nodes).map host.key).toFinset := by
    apply Finset.ext
    intro key
    simp only [List.mem_toFinset, mem_distinct_keys]
  rw [sameKeys, List.toFinset_card_of_nodup (distinct_keys_nodup host nodes), List.length_map]
  exact List.length_mergeSort _

theorem deduplicate_sorted (host : Host ν σ) (nodes : List ν) :
    ((deduplicate host nodes).map host.key).Pairwise fun a b => a.le b = true := by
  rw [List.pairwise_map]
  apply List.pairwise_mergeSort
  · intro a b c
    exact Key.le_trans
  · intro a b
    exact Key.le_total _ _

theorem deduplicate_keys_perm (host : Host ν σ) (nodes : List ν) :
    ((deduplicate host nodes).map host.key).Perm ((distinct host nodes).map host.key) :=
  (List.mergeSort_perm _ _).map host.key

/-- The keys that are kept, and their order, are those of the set of keys. -/
theorem deduplicate_keys_eq
    (same : ∀ key, key ∈ nodes.map host.key ↔ key ∈ others.map host.key) :
    (deduplicate host nodes).map host.key = (deduplicate host others).map host.key := by
  have perm : ((distinct host nodes).map host.key).Perm ((distinct host others).map host.key) := by
    apply (List.perm_ext_iff_of_nodup (distinct_keys_nodup host nodes)
      (distinct_keys_nodup host others)).mpr
    intro key
    rw [mem_distinct_keys, mem_distinct_keys]
    exact same key
  apply List.Perm.eq_of_pairwise (fun a b _ _ => Key.le_antisymm)
    (deduplicate_sorted host nodes) (deduplicate_sorted host others)
  exact (deduplicate_keys_perm host nodes).trans
    (perm.trans (deduplicate_keys_perm host others).symm)

section

variable {keeps : σ → Prop} {answers : Answers ν}

/-- Where types depend on keys, the types of the marked nodes are those of the set of nodes. -/
theorem chosen_types_eq (byKey : Function.FactorsThrough answers.declared host.key)
    (same : ∀ node, node ∈ nodes ↔ node ∈ others) :
    (chosen host answers nodes).filterMap answers.declared =
      (chosen host answers others).filterMap answers.declared := by
  have sameKeys : (chosen host answers nodes).map host.key =
      (chosen host answers others).map host.key := by
    apply deduplicate_keys_eq
    intro key
    simp only [List.mem_map, List.mem_filter, same]
  obtain ⟨typeAt, declared⟩ := (Function.factorsThrough_iff answers.declared).mp byKey
  rw [declared, ← List.filterMap_map, ← List.filterMap_map, sameKeys]

/-- Runs over the same set of nodes have the same outcome, whatever their order and however often
they are repeated. Answers about decorators depend on the decorator, types on the key: nodes with
one key may still differ in their kinds and decorators. -/
theorem run_eq_of_same_nodes (gives : host.Gives keeps answers)
    (byKey : Function.FactorsThrough answers.declared host.key)
    (same : ∀ node, node ∈ nodes ↔ node ∈ others) {s t : σ} (first : keeps s) (second : keeps t) :
    (run host freshRenderer .never nodes s).1 = (run host freshRenderer .never others t).1 := by
  rw [run_never gives nodes first, run_never gives others second, chosen_types_eq byKey same]

end

structure Listed where
  key : Key
  kind : Kind
  decorators : List String
  deriving DecidableEq, Repr

def listedHost (refers : List (String × String)) (types : List (Key × EnumType)) :
    Host Listed Unit where
  key := Listed.key
  kind := Listed.kind
  annotationCount node := node.decorators.length
  annotationType node index _ := (.ok (node.decorators[index]?.bind fun d => refers.lookup d), ())
  declaredType node _ := (.ok (types.lookup node.key), ())

theorem listedHost_gives (refers : List (String × String)) (types : List (Key × EnumType)) :
    (listedHost refers types).Gives (fun _ => True)
      ⟨fun node index => node.decorators[index]?.bind fun d => refers.lookup d,
        fun node => types.lookup node.key⟩ :=
  ⟨fun _ _ _ _ => ⟨rfl, trivial⟩, fun _ _ _ => ⟨rfl, trivial⟩⟩

def sampleHost : Host Listed Unit :=
  listedHost [("mark", Package.markerFullName)]
    [(⟨"m.py", 1, 0, "C"⟩, ⟨"m.C", "m", [⟨"A", true⟩]⟩),
      (⟨"m.py", 5, 0, "D"⟩, ⟨"m.D", "m", []⟩)]

def sampleNodes : List Listed :=
  [⟨⟨"m.py", 5, 0, "D"⟩, .enum, ["mark"]⟩, ⟨⟨"m.py", 1, 0, "C"⟩, .plain, []⟩,
    ⟨⟨"m.py", 1, 0, "C"⟩, .enum, ["mark"]⟩, ⟨⟨"m.py", 1, 0, "C"⟩, .enum, ["other", "mark"]⟩]

theorem run_eq_of_same_nodes_repeated :
    (∀ node, node ∈ sampleNodes ↔ node ∈ sampleNodes.reverse ++ sampleNodes) ∧
      (run sampleHost freshRenderer .never sampleNodes ()).1 =
        (run sampleHost freshRenderer .never (sampleNodes.reverse ++ sampleNodes) ()).1 := by
  have same : ∀ node, node ∈ sampleNodes ↔ node ∈ sampleNodes.reverse ++ sampleNodes := by
    intro node
    rw [List.mem_append, List.mem_reverse, or_self]
  refine ⟨same, run_eq_of_same_nodes (listedHost_gives _ _) ?_ same trivial trivial⟩
  intro a b key
  exact congrArg (List.lookup · _) key

end EnumLookup.Generation
