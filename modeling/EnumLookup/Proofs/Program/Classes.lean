import EnumLookup.Program.Inheritance
import EnumLookup.Proofs.Program.Splitting

/-!
The classes of a program. A class is what a module and a qualified name stand for; the dotted
name alone need not tell classes apart, since `a.b.C` may be a class `b.C` of `a` or a class `C`
of `a.b`. Whatever a base leads to is a class again.
-/
namespace EnumLookup

open Declaration Source Text

theorem LoadedModule.class?_mem {home : LoadedModule} {qualname : String}
    {declaration : ClassDeclaration} (found : home.class? qualname = some declaration) :
    declaration ∈ home.declarations ∧ declaration.qualname = qualname := by
  unfold LoadedModule.class? at found
  rw [List.findRev?_eq_find?_reverse] at found
  refine ⟨List.mem_reverse.mp (List.mem_of_find?_eq_some found), ?_⟩
  simpa using List.find?_some found

namespace Program

variable {program : Program}

/-- The class is the one that its module and its qualified name stand for. -/
def IsClass (program : Program) (loaded : LoadedClass) : Prop :=
  program.class? loaded.module.name loaded.qualname = some loaded

def classNames (program : Program) : List (String × String) :=
  program.modules.flatMap fun module =>
    module.declarations.map fun declaration => (module.name, declaration.qualname)

def dotted (name : String × String) : String := name.1 ++ "." ++ name.2

/-- No two classes share their dotted name. -/
def DistinctNames (program : Program) : Prop :=
  ∀ a ∈ program.classNames, ∀ b ∈ program.classNames, dotted a = dotted b → a = b

instance (program : Program) : Decidable program.DistinctNames :=
  inferInstanceAs (Decidable (∀ a ∈ _, ∀ b ∈ _, dotted a = dotted b → a = b))

theorem class?_eq_some {module qualname : String} {loaded : LoadedClass} :
    program.class? module qualname = some loaded ↔
      program.module? module = some loaded.module ∧
        loaded.module.class? qualname = some loaded.declaration := by
  simp only [class?, Option.bind_eq_bind, Option.bind_eq_some_iff]
  constructor
  · rintro ⟨home, home_found, declaration, declaration_found, same⟩
    cases same
    exact ⟨home_found, declaration_found⟩
  · rintro ⟨home_found, declaration_found⟩
    exact ⟨loaded.module, home_found, loaded.declaration, declaration_found, rfl⟩

/-- What a module and a qualified name stand for is a class that has them. -/
theorem class?_isClass {module qualname : String} {loaded : LoadedClass}
    (found : program.class? module qualname = some loaded) :
    program.IsClass loaded ∧ loaded.module.name = module ∧ loaded.qualname = qualname := by
  obtain ⟨home_found, declaration_found⟩ := class?_eq_some.mp found
  have sameModule : loaded.module.name = module := (module?_mem home_found).2
  have sameQualname : loaded.qualname = qualname := (LoadedModule.class?_mem declaration_found).2
  refine ⟨?_, sameModule, sameQualname⟩
  rw [IsClass, sameModule, sameQualname, found]

theorem classNamed?_isClass {name : String} {loaded : LoadedClass}
    (found : program.classNamed? name = some loaded) : program.IsClass loaded := by
  simp only [classNamed?, Option.bind_eq_bind, Option.bind_eq_some_iff] at found
  obtain ⟨⟨home, qualname⟩, split, declaration, declaration_found, same⟩ := found
  cases same
  have whole : program.class? home.name qualname = some ⟨home, declaration⟩ :=
    class?_eq_some.mpr ⟨(splitModule?_eq_some.mp split).loaded, declaration_found⟩
  exact (class?_isClass whole).1

/-- A base leads to classes of the program only. -/
theorem judgeBase_isClass {loaded parent : LoadedClass} {base : Expr}
    (judged : program.judgeBase loaded base = .ok (.inherits parent)) : program.IsClass parent := by
  simp only [judgeBase] at judged
  split at judged
  next => simp at judged
  next => simp at judged
  next name _ =>
    split at judged
    next => simp at judged
    next =>
      split at judged
      next found =>
        cases judged
        exact classNamed?_isClass found
      next => simp at judged

theorem IsClass.mem_classNames {loaded : LoadedClass} (isClass : program.IsClass loaded) :
    (loaded.module.name, loaded.qualname) ∈ program.classNames := by
  obtain ⟨home_found, declaration_found⟩ := class?_eq_some.mp isClass
  exact List.mem_flatMap.mpr ⟨loaded.module, (module?_mem home_found).1,
    List.mem_map.mpr ⟨loaded.declaration, (LoadedModule.class?_mem declaration_found).1, rfl⟩⟩

/-- Where dotted names are distinct, a class is known by its dotted name. -/
theorem DistinctNames.eq (distinct : program.DistinctNames) {a b : LoadedClass}
    (ha : program.IsClass a) (hb : program.IsClass b) (same : a.fullName = b.fullName) : a = b := by
  have names := distinct _ ha.mem_classNames _ hb.mem_classNames same
  obtain ⟨module, qualname⟩ := Prod.mk.inj names
  have found : program.class? a.module.name a.qualname = some b := by
    rw [module, qualname]
    exact hb
  exact Option.some.inj (ha.symm.trans found)

end Program

end EnumLookup
