import EnumLookup.Proofs.Program.Reading

/-!
Programs that hold the same modules. All questions about a program go to its modules by their names,
so programs whose modules are the same, in whatever order, give the same answers, and settle the
same kinds.
-/
namespace EnumLookup.Program

open Declaration Source Text

/-- The programs follow questions as far, and have the same module for every name. -/
structure SameModules (program other : Program) : Prop where
  limits : program.limits = other.limits
  modules : program.module? = other.module?

namespace SameModules

variable {program other : Program} (same : program.SameModules other)
include same

theorem class? (module qualname : String) :
    program.class? module qualname = other.class? module qualname := by
  simp only [Program.class?, same.modules]

theorem canonicalName (name : String) : program.canonicalName name = other.canonicalName name := by
  have renames := rename?_congr same.modules
  have within (steps : Nat) (seen : List String) (name : String) :
      program.canonicalWithin steps seen name = other.canonicalWithin steps seen name := by
    induction steps generalizing seen name with
    | zero => rfl
    | succ steps ih => simp only [canonicalWithin, renames, ih]
  rw [Program.canonicalName, Program.canonicalName, same.limits, within]

theorem resolve (module : LoadedModule) (reference : String) :
    program.resolve module reference = other.resolve module reference := by
  simp only [Program.resolve, same.canonicalName]

theorem judgeBase (loaded : LoadedClass) (base : Expr) :
    program.judgeBase loaded base = other.judgeBase loaded base := by
  simp only [Program.judgeBase, resolveBase, classNamed?, same.resolve, splitModule?_congr same.modules]

theorem hasEnumBase {above otherAbove : LoadedClass → Question Bool}
    (parents : ∀ parent, above parent = otherAbove parent) (loaded : LoadedClass)
    (bases : List Expr) (memo : Memo) :
    program.hasEnumBase above loaded bases memo =
      other.hasEnumBase otherAbove loaded bases memo := by
  induction bases generalizing memo with
  | nil => rfl
  | cons base rest ih => simp only [Program.hasEnumBase, same.judgeBase, parents, ih]

theorem isEnumClass (loaded : LoadedClass) :
    program.isEnumClass loaded = other.isEnumClass loaded := by
  have within (depth : Nat) (visiting : List String) (loaded : LoadedClass) :
      program.isEnumWithin depth visiting loaded = other.isEnumWithin depth visiting loaded := by
    induction depth generalizing visiting loaded with
    | zero =>
      funext memo
      simp only [isEnumWithin]
    | succ depth ih =>
      funext memo
      have bases := same.hasEnumBase (ih (loaded.fullName :: visiting)) loaded loaded.bases
      simp only [isEnumWithin, bases]
  rw [Program.isEnumClass, Program.isEnumClass, same.limits, within]

theorem declaredType (module qualname : String) :
    program.declaredType module qualname = other.declaredType module qualname := by
  unfold Program.declaredType
  simp only [same.class?, same.isEnumClass]

theorem annotationType (declaration : ClassDeclaration) (index : Nat) :
    program.annotationType declaration index = other.annotationType declaration index := by
  simp only [Program.annotationType, same.modules, same.resolve]

theorem settle (declaration : ClassDeclaration) (memo : Memo) :
    program.settle declaration memo = other.settle declaration memo := by
  simp only [Program.settle, same.class?, same.isEnumClass]

end SameModules

/-- The programs hold the same modules in some orders, no two of them under one name. -/
structure Reorders (program other : Program) : Prop where
  limits : program.limits = other.limits
  names : (program.modules.map (·.name)).Nodup
  modules : program.modules.Perm other.modules

namespace Reorders

variable {program other : Program} (reorders : program.Reorders other)
include reorders

/-- The order of modules does not matter to finding one. -/
theorem same : program.SameModules other where
  limits := reorders.limits
  modules := by
    have otherNames := (reorders.modules.map _).nodup_iff.mp reorders.names
    funext name
    cases found : program.module? name with
    | some home =>
      obtain ⟨member, rfl⟩ := module?_mem found
      exact (module?_of_mem otherNames (reorders.modules.mem_iff.mp member)).symm
    | none =>
      cases otherFound : other.module? name with
      | none => rfl
      | some home =>
        obtain ⟨member, rfl⟩ := module?_mem otherFound
        rw [← found]
        exact module?_of_mem reorders.names (reorders.modules.mem_iff.mpr member)

theorem declarations : program.declarations.Perm other.declarations :=
  reorders.modules.flatMap_right _

theorem mem_classNames (name : String × String) :
    name ∈ program.classNames ↔ name ∈ other.classNames :=
  (reorders.modules.flatMap_right _).mem_iff

theorem distinctNames (distinct : program.DistinctNames) : other.DistinctNames := by
  simpa only [DistinctNames, reorders.mem_classNames] using distinct

end Reorders

end EnumLookup.Program
