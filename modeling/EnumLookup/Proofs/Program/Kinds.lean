import EnumLookup.Program.Host
import EnumLookup.Proofs.Program.Classes

/-!
Kinds do not matter to names and enums. What a program answers about a reference or a class is
what it answers with every kind forgotten, so settling the kinds of the declarations changes no
answer and no memory.
-/
namespace EnumLookup

open Declaration Source Text

def Declaration.ClassDeclaration.plain (declaration : ClassDeclaration) : ClassDeclaration :=
  { declaration with kind := .plain }

namespace LoadedModule

def plain (module : LoadedModule) : LoadedModule :=
  { module with declarations := module.declarations.map ClassDeclaration.plain }

@[simp] theorem plain_name (module : LoadedModule) : module.plain.name = module.name := rfl

theorem class?_plain (module : LoadedModule) (qualname : String) :
    module.plain.class? qualname = (module.class? qualname).map ClassDeclaration.plain := by
  unfold class? plain
  rw [List.findRev?_eq_find?_reverse, List.findRev?_eq_find?_reverse, ← List.map_reverse,
    List.find?_map]
  rfl

theorem hasClass_plain (module : LoadedModule) (qualname : String) :
    module.plain.hasClass qualname = module.hasClass qualname := by
  unfold hasClass plain
  rw [List.any_map]
  rfl

end LoadedModule

def LoadedClass.plain (loaded : LoadedClass) : LoadedClass :=
  ⟨loaded.module.plain, loaded.declaration.plain⟩

@[simp] theorem LoadedClass.plain_fullName (loaded : LoadedClass) :
    loaded.plain.fullName = loaded.fullName := rfl

def Program.BaseVerdict.plain : BaseVerdict → BaseVerdict
  | enum => enum
  | inherits parent => inherits parent.plain
  | foreign => foreign

namespace Program

def plain (program : Program) : Program :=
  { program with modules := program.modules.map LoadedModule.plain }

variable (program : Program)

theorem module?_plain (name : String) :
    program.plain.module? name = (program.module? name).map LoadedModule.plain := by
  unfold module? plain
  rw [List.find?_map]
  rfl

theorem class?_plain (module qualname : String) :
    program.plain.class? module qualname =
      (program.class? module qualname).map LoadedClass.plain := by
  simp only [class?, module?_plain]
  cases program.module? module with
  | none => rfl
  | some home =>
    simp only [Option.map_some, Option.bind_eq_bind, Option.bind_some, LoadedModule.class?_plain]
    cases home.class? qualname <;> rfl

theorem splitWithin_plain (parts : List String) (count : Nat) :
    program.plain.splitWithin parts count =
      (program.splitWithin parts count).map fun split => (split.1.plain, split.2) := by
  induction count with
  | zero => rfl
  | succ count ih =>
    simp only [splitWithin, module?_plain]
    cases program.module? (Dotted.join (parts.take (count + 1))) with
    | none => exact ih
    | some module => rfl

theorem splitModule?_plain (name : String) :
    program.plain.splitModule? name =
      (program.splitModule? name).map fun split => (split.1.plain, split.2) :=
  splitWithin_plain ..

theorem rename?_plain (name : String) : program.plain.rename? name = program.rename? name := by
  simp only [rename?, splitModule?_plain]
  cases program.splitModule? name <;> rfl

theorem canonicalName_plain (name : String) :
    program.plain.canonicalName name = program.canonicalName name := by
  have within (steps : Nat) (seen : List String) (name : String) :
      program.plain.canonicalWithin steps seen name = program.canonicalWithin steps seen name := by
    induction steps generalizing seen name with
    | zero => rfl
    | succ steps ih => simp only [canonicalWithin, rename?_plain, ih]
  exact within ..

theorem resolve_plain (module : LoadedModule) (reference : String) :
    program.plain.resolve module.plain reference = program.resolve module reference := by
  simp only [resolve, canonicalName_plain]
  rfl

theorem resolveBase_plain (loaded : LoadedClass) (base : Expr) :
    program.plain.resolveBase loaded.plain base = program.resolveBase loaded base := by
  have qualname : loaded.plain.qualname = loaded.qualname := rfl
  have module : loaded.plain.module = loaded.module.plain := rfl
  simp only [resolveBase, qualname, module, LoadedModule.hasClass_plain, resolve_plain,
    LoadedModule.plain_name]

theorem classNamed?_plain (name : String) :
    program.plain.classNamed? name = (program.classNamed? name).map LoadedClass.plain := by
  simp only [classNamed?, splitModule?_plain]
  cases program.splitModule? name with
  | none => rfl
  | some split =>
    simp only [Option.map_some, Option.bind_eq_bind, Option.bind_some, LoadedModule.class?_plain]
    cases split.1.class? split.2 <;> rfl

theorem judgeBase_plain (loaded : LoadedClass) (base : Expr) :
    program.plain.judgeBase loaded.plain base =
      (program.judgeBase loaded base).map BaseVerdict.plain := by
  simp only [judgeBase, resolveBase_plain, classNamed?_plain]
  cases program.resolveBase loaded base with
  | error error => rfl
  | ok resolved =>
    cases resolved with
    | none => rfl
    | some name =>
      dsimp only
      split
      · rfl
      · cases program.classNamed? name <;> rfl

theorem hasEnumBase_plain {above plainAbove : LoadedClass → Question Bool}
    (same : ∀ parent memo, plainAbove parent.plain memo = above parent memo) (loaded : LoadedClass)
    (bases : List Expr) (memo : Memo) :
    program.plain.hasEnumBase plainAbove loaded.plain bases memo =
      program.hasEnumBase above loaded bases memo := by
  induction bases generalizing memo with
  | nil => rfl
  | cons base rest ih =>
    simp only [hasEnumBase, judgeBase_plain]
    cases program.judgeBase loaded base with
    | error error => rfl
    | ok verdict =>
      cases verdict with
      | enum => rfl
      | foreign => exact ih memo
      | inherits parent => simp only [Except.map, BaseVerdict.plain, same, ih]

theorem isEnumWithin_plain (depth : Nat) (visiting : List String) (loaded : LoadedClass)
    (memo : Memo) :
    program.plain.isEnumWithin depth visiting loaded.plain memo =
      program.isEnumWithin depth visiting loaded memo := by
  induction depth generalizing visiting loaded memo with
  | zero =>
    simp only [isEnumWithin, LoadedClass.plain_fullName]
    rfl
  | succ depth ih =>
    have bases := hasEnumBase_plain program (ih (loaded.fullName :: visiting)) loaded loaded.bases
    simp only [isEnumWithin, LoadedClass.plain_fullName]
    simp only [← bases]
    rfl

/-- Whether a class is an enum does not depend on kinds. -/
theorem isEnumClass_plain (loaded : LoadedClass) (memo : Memo) :
    program.plain.isEnumClass loaded.plain memo = program.isEnumClass loaded memo :=
  isEnumWithin_plain ..

theorem classNames_plain : program.plain.classNames = program.classNames := by
  simp only [classNames, plain, List.flatMap_map, LoadedModule.plain, List.map_map]
  rfl

theorem distinctNames_plain : program.plain.DistinctNames ↔ program.DistinctNames := by
  simp only [DistinctNames, classNames_plain]

theorem IsClass.plain {program : Program} {loaded : LoadedClass} (isClass : program.IsClass loaded) :
    program.plain.IsClass loaded.plain := by
  have found := class?_plain program loaded.module.name loaded.qualname
  rw [isClass] at found
  exact found

end Program

end EnumLookup
