import EnumLookup.Proofs.Program.Transparency

/-!
Kinds that were settled. A declaration that is its own class, and an enum by its bases, is settled
as an enum: it was judged from a justified memory, if its bases did not tell.
-/
namespace EnumLookup.Program

open Declaration Source

variable {program : Program} {memo : Memo} {loaded : LoadedClass} {declaration : ClassDeclaration}

theorem mem_settleAll (distinct : program.plain.DistinctNames)
    {declarations : List ClassDeclaration} (justified : Justified program.plain memo)
    (member : declaration ∈ (program.settleAll declarations memo).value) :
    ∃ unsettled memo, Justified program.plain memo ∧
      declaration = (program.settle unsettled memo).value := by
  induction declarations generalizing memo with
  | nil => cases member
  | cons first rest ih =>
    rcases List.mem_cons.mp member with rfl | inRest
    · exact ⟨first, memo, justified, rfl⟩
    · exact ih (settle_justified distinct first justified) inRest

theorem mem_settleModules (distinct : program.plain.DistinctNames) {modules : List LoadedModule}
    (justified : Justified program.plain memo) {home : LoadedModule}
    (member : home ∈ (program.settleModules modules memo).value)
    (declared : declaration ∈ home.declarations) :
    ∃ unsettled memo, Justified program.plain memo ∧
      declaration = (program.settle unsettled memo).value := by
  induction modules generalizing memo with
  | nil => cases member
  | cons module rest ih =>
    rcases List.mem_cons.mp member with rfl | inRest
    · exact mem_settleAll distinct justified declared
    · exact ih (settleAll_justified distinct module.declarations justified) inRest

theorem settle_enum (found : program.class? declaration.module declaration.qualname = some loaded)
    (enum : (program.isEnumClass loaded memo).1 = .ok true)
    (bases : declaration.header.bases ≠ []) :
    (program.settle declaration memo).value.kind = .enum := by
  unfold settle
  split
  · next known =>
    have noBases : declaration.header.bases.isEmpty = false := by simpa using bases
    simpa [noBases] using known
  · simp only [found]
    revert enum
    rcases program.isEnumClass loaded memo with ⟨_ | _, memo'⟩
    · rintro ⟨⟩
    · rintro ⟨⟩
      rfl

/-- A class without bases is no enum. -/
theorem bases_ne_nil (enum : (program.isEnumClass loaded []).1 = .ok true) : loaded.bases ≠ [] := by
  intro none
  revert enum
  refine isEnumWithin_cases (motive := fun answer => answer.1 ≠ .ok true) ?_ ?_ ?_ ?_
  · intro found known
    cases known
  · intro _ _ same
    cases same
  · intro _ _ _ same
    cases same
  · intro further _ _ _ same
    rw [none] at same
    cases same

/-- A declaration of a loaded program that is its own class, and an enum, has the kind of one. -/
theorem settled_enum {limits : Limits} {loading : Loading}
    (distinct : (ofLoading limits loading).program.DistinctNames) {home : LoadedModule}
    (member : home ∈ (ofLoading limits loading).program.modules)
    (declared : declaration ∈ home.declarations)
    (found : (ofLoading limits loading).program.class? declaration.module declaration.qualname =
      some loaded) (itself : loaded.declaration = declaration)
    (enum : ((ofLoading limits loading).program.isEnumClass loaded []).1 = .ok true) :
    declaration.kind = .enum := by
  let indexed : Program := ⟨limits, loading.modules⟩
  have same : (ofLoading limits loading).program.plain = indexed.plain := ofLoading_plain ..
  have distinct : indexed.plain.DistinctNames := by rwa [← same, distinctNames_plain]
  obtain ⟨unsettled, memo, justified, settled⟩ := mem_settleModules distinct .nil member declared
  have plain : declaration.plain = unsettled.plain := by
    rw [settled]
    exact settle_value ..
  obtain ⟨-, module, qualname, -, header, -⟩ := ClassDeclaration.mk.inj plain
  obtain ⟨original, original_found, sameClass⟩ :
      ∃ original, indexed.class? unsettled.module unsettled.qualname = some original ∧
        original.plain = loaded.plain := by
    have settledFound := class?_plain (ofLoading limits loading).program declaration.module
      declaration.qualname
    rw [found, same, class?_plain, module, qualname] at settledFound
    exact Option.map_eq_some_iff.mp settledFound
  have fresh : (indexed.isEnumClass original []).1 = .ok true := by
    rwa [← isEnumClass_plain, sameClass, ← same, isEnumClass_plain]
  have isClass : indexed.plain.IsClass original.plain := (class?_isClass original_found).1.plain
  have recalled : (indexed.isEnumClass original memo).1 = .ok true := by
    rw [← isEnumClass_plain] at fresh ⊢
    rw [isEnumClass_recalls distinct isClass justified (by rw [fresh]; rfl), fresh]
  have bases : unsettled.header.bases ≠ [] := by
    rw [← header, ← itself]
    exact bases_ne_nil enum
  rw [settled]
  exact settle_enum original_found recalled bases

end EnumLookup.Program
