import EnumLookup.Proofs.Program.Chains

/-!
The type of a class against its ancestry. After loading and any questions, a class has a type
exactly when it reaches an enum base. Cycles and too long chains above it are the only reasons for
an error, and a program with no more classes than a chain may have links has no chain too long.
-/
namespace EnumLookup.Program

open Declaration Source Text Relation

/-- What may be answered about a class, by its ancestry. -/
inductive Classified (program : Program) (c : LoadedClass) :
    Except ResolutionError (Option EnumType) → Prop
  | enum (reaches : program.ReachesEnum c) : Classified program c (.ok (some (enumType c)))
  | plain (never : ¬ program.ReachesEnum c) : Classified program c (.ok none)
  | failed {error} (fails : FailsFor program [] c program.limits.nesting error) :
      Classified program c (.error error)

/-- The answer about a class, after some other questions. -/
def Loaded.typeAfter (loaded : Loaded) (asked : List (String × String)) (c : LoadedClass) :
    Except ResolutionError (Option EnumType) :=
  (loaded.program.declaredType c.module.name c.qualname
    (loaded.program.memoAfter loaded.memo asked)).1

variable {program : Program} {memo : Memo} {c : LoadedClass} {limits : Limits} {loading : Loading}

/-- Every answer from a justified memory is by ancestry. -/
theorem declaredType_classified (distinct : program.DistinctNames)
    (resolves : program.ResolvesBases) (isClass : program.IsClass c)
    (justified : Justified program memo) :
    program.Classified c (program.declaredType c.module.name c.qualname memo).1 := by
  have left := isEnumClass_leaves distinct isClass justified
  rw [declaredType_some isClass]
  cases answer : (program.isEnumClass c memo).1 with
  | error error =>
    have fails := isEnumWithin_error distinct resolves _ [] c isClass (by simp) memo answer
    refine .failed ?_
    cases fails with
    | cycle path cycle => exact .cycle path cycle
    | length climbs => exact .length climbs
  | ok found =>
    have known := left.holds found answer
    have byAncestry := left.justified.reachesEnum isClass known
    cases found with
    | true => exact .enum (byAncestry.mp rfl)
    | false => exact .plain fun reaches => nomatch byAncestry.mpr reaches

theorem typeAfter_classified (distinct : (ofLoading limits loading).program.DistinctNames)
    (resolves : (ofLoading limits loading).program.ResolvesBases)
    (isClass : (ofLoading limits loading).program.IsClass c) (asked : List (String × String)) :
    (ofLoading limits loading).program.Classified c
      ((ofLoading limits loading).typeAfter asked c) :=
  declaredType_classified distinct resolves isClass
    (memoAfter_justified distinct asked (ofLoading_justified distinct))

/-- Enums are found by reachability. An error means that the class reaches a cycle, or that a chain
above it is as long as chains may be at least, which takes more classes than chains may have links.
A class that has neither above it has a type if it reaches an enum base, and none otherwise. -/
theorem typeAfter_iff_reachesEnum (distinct : (ofLoading limits loading).program.DistinctNames)
    (resolves : (ofLoading limits loading).program.ResolvesBases)
    (isClass : (ofLoading limits loading).program.IsClass c) (asked : List (String × String)) :
    (∀ error, (ofLoading limits loading).typeAfter asked c = .error error →
      FailsFor (ofLoading limits loading).program [] c limits.nesting error) ∧
    ((ofLoading limits loading).program.Climbs [] c limits.nesting →
      limits.nesting < (ofLoading limits loading).program.classNames.length) ∧
    (¬ (ofLoading limits loading).program.ReachesCycle c →
      ¬ (ofLoading limits loading).program.Climbs [] c limits.nesting →
      ((ofLoading limits loading).program.ReachesEnum c →
        (ofLoading limits loading).typeAfter asked c = .ok (some (enumType c))) ∧
      (¬ (ofLoading limits loading).program.ReachesEnum c →
        (ofLoading limits loading).typeAfter asked c = .ok none)) := by
  have classified := typeAfter_classified distinct resolves isClass asked
  refine ⟨?_, ?_, ?_⟩
  · intro error failed
    rw [failed] at classified
    cases classified with
    | failed fails => exact fails
  · intro climbs
    simpa using climbs.lt isClass List.nodup_nil (List.nil_subset _)
  · intro acyclic short
    generalize (ofLoading limits loading).typeAfter asked c = answer at classified ⊢
    cases classified with
    | enum reaches => exact ⟨fun _ => rfl, fun never => absurd reaches never⟩
    | plain never => exact ⟨fun reaches => absurd reaches never, fun _ => rfl⟩
    | failed fails =>
      cases fails with
      | cycle path cycle => exact absurd ⟨_, path, cycle⟩ acyclic
      | length climbs => exact absurd climbs short

/-- In a chain of three links the first one is an enum, after a question about the last one. -/
theorem typeAfter_iff_reachesEnum_chain :
    (chainProgram .standard 2).DistinctNames ∧ (chainProgram .standard 2).ResolvesBases ∧
      (chainProgram .standard 2).IsClass (linkClass 2 0) ∧
      (ofLoading .standard (chain 2)).typeAfter [("m", link 2)] (linkClass 2 0) =
        .ok (some ⟨"m.cFlag", "m", []⟩) := by
  have distinct := chain_distinctNames .standard 2
  have resolves : (chainProgram .standard 2).ResolvesBases := chain_resolvesBases (by decide) 2
  have isClass : (chainProgram .standard 2).IsClass (linkClass 2 0) :=
    linkClass_isClass (Nat.zero_le 2)
  have acyclic : ¬ (chainProgram .standard 2).ReachesCycle (linkClass 2 0) :=
    chain_not_reachesCycle (by decide) (Nat.zero_le 2)
  have enum : (chainProgram .standard 2).ReachesEnum (linkClass 2 0) :=
    chain_reachesEnum (by decide) (Nat.zero_le 2)
  refine ⟨distinct, resolves, isClass, ?_⟩
  rw [← ofLoading_chain_program] at distinct resolves isClass acyclic enum
  obtain ⟨-, long, decided⟩ :=
    typeAfter_iff_reachesEnum distinct resolves isClass [("m", link 2)]
  refine (decided acyclic ?_).1 enum
  intro climbs
  have more := long climbs
  rw [ofLoading_chain_program, chain_classNames] at more
  simp [Limits.standard] at more

/-- The first link of a chain that is too long is refused an answer. -/
theorem typeAfter_tooDeep (some_renaming : 0 < limits.renamings) {length : Nat}
    (long : limits.nesting ≤ length) :
    (ofLoading limits (chain length)).typeAfter [] (linkClass length 0) =
      .error (.tooDeep (link 0)) := by
  obtain ⟨name, walked⟩ : ∃ name, (chainProgram limits length).isEnumClass (linkClass length 0) [] =
      (.error (.tooDeep name), []) :=
    isEnumWithin_chain some_renaming limits.nesting (by omega) [] (by simp)
  have isClass : (chainProgram limits length).IsClass (linkClass length 0) :=
    linkClass_isClass (Nat.zero_le length)
  have answer := declaredType_some isClass []
  rw [walked] at answer
  simp only [ofLoading_chain, Loaded.typeAfter, memoAfter]
  exact congrArg Prod.fst answer

/-- A chain of 701 links has no cycle, and its first link reaches an enum base, but it is refused
an answer for the length of the chain. -/
theorem not_typeAfter_iff_reachesEnum_chain :
    (ofLoading .standard (chain 700)).program.DistinctNames ∧
      (ofLoading .standard (chain 700)).program.ResolvesBases ∧
      (ofLoading .standard (chain 700)).program.IsClass (linkClass 700 0) ∧
      ¬ (ofLoading .standard (chain 700)).program.ReachesCycle (linkClass 700 0) ∧
      (ofLoading .standard (chain 700)).program.ReachesEnum (linkClass 700 0) ∧
      (ofLoading .standard (chain 700)).typeAfter [] (linkClass 700 0) =
        .error (.tooDeep "cFlag") := by
  refine ⟨?_, ?_, ?_, ?_, ?_, typeAfter_tooDeep (by decide) (by decide)⟩
  all_goals rw [ofLoading_chain_program]
  · exact chain_distinctNames .standard 700
  · exact chain_resolvesBases (by decide) 700
  · exact linkClass_isClass (Nat.zero_le 700)
  · exact chain_not_reachesCycle (by decide) (Nat.zero_le 700)
  · exact chain_reachesEnum (by decide) (Nat.zero_le 700)

end EnumLookup.Program
