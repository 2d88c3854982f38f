import EnumLookup.Declaration.Bindings
import EnumLookup.Proofs.Text.Dotted

/-!
Where relative imports lead. Each dot but the first is one step up, and an import whose steps end
inside the packages names what lies below that place. Steps that end right above the top package
leave a module name as it is, as if the import had no dots; only further up nothing is named.
-/
namespace EnumLookup

open Text

namespace Text.Dotted

theorem join_eq_empty {parts : List String} : join parts = "" ↔ parts = [] ∨ parts = [""] := by
  match parts with
  | [] => simp [join, joinDots]
  | [part] => simp [join_singleton]
  | part :: next :: rest => simp [join_cons (List.cons_ne_nil next rest)]

theorem extend_join {parts : List String} (nonempty : parts ≠ []) {inner : String}
    (given : inner ≠ "") : extend (join parts) inner = join (parts ++ components inner) := by
  rw [extend, if_neg given, join_append nonempty (components_ne_nil inner), join_components]

theorem extend_eq_empty {outer inner : String} :
    extend outer inner = "" ↔ outer = "" ∧ inner = "" := by
  unfold extend
  split
  · next empty => simp [empty]
  · next given => simp [given]

end Text.Dotted

namespace Declaration

variable {context : ModuleContext} {level : Nat} {module : Option String}

/-- The module that a relative import names: what is left of the package after one step up for each
dot but the first, with the module below it, and nothing above the top package. -/
def ModuleContext.relative? (context : ModuleContext) (level : Nat) (module : Option String) :
    Option String :=
  let package := context.packageParts
  if package.length < level then none
  else some (Dotted.extend (Dotted.join (package.take (package.length - level + 1)))
    (module.getD ""))

/-- What an import names, as one name: a given module is joined to what is left of the package. -/
theorem importedModule?_eq (relative : 1 ≤ level) :
    importedModule? context level module =
      if context.packageParts.length + 1 < level then none
      else
        (some (Dotted.join (context.packageParts.take (context.packageParts.length + 1 - level) ++
          if module.getD "" = "" then [] else Dotted.components (module.getD "")))).filter
            (· ≠ "") := by
  have notAbsolute : level ≠ 0 := by omega
  have further : context.packageParts.length < level - 1 ↔
      context.packageParts.length + 1 < level := by omega
  have left : context.packageParts.length - (level - 1) =
      context.packageParts.length + 1 - level := by omega
  simp only [importedModule?, if_neg notAbsolute, further, left, Option.filter_some]
  cases module <;> simp

/-- Inside the packages a relative import names what it should; right above the top package it names
the given module as if that were absolute. -/
theorem importedModule?_relative (relative : 1 ≤ level) :
    importedModule? context level module =
      (if level = context.packageParts.length + 1 then some (module.getD "")
        else context.relative? level module).filter (· ≠ "") := by
  rw [importedModule?_eq relative]
  rcases Nat.lt_trichotomy level (context.packageParts.length + 1) with inside | above | further
  · have notFurther : ¬context.packageParts.length + 1 < level := by omega
    have notAbove : ¬context.packageParts.length < level := by omega
    have steps : context.packageParts.length + 1 - level =
        context.packageParts.length - level + 1 := by omega
    have left : context.packageParts.take (context.packageParts.length - level + 1) ≠ [] := by
      apply List.ne_nil_of_length_pos
      rw [List.length_take]
      omega
    rw [if_neg notFurther, if_neg (Nat.ne_of_lt inside), ModuleContext.relative?,
      if_neg notAbove, steps]
    split
    · next empty => rw [List.append_nil, empty]; rfl
    · next given => rw [Dotted.extend_join left given]
  · subst above
    rw [if_neg (Nat.lt_irrefl _), if_pos rfl, Nat.sub_self, List.take_zero, List.nil_append]
    split
    · next empty => rw [empty]; rfl
    · next given => rw [Dotted.join_components]
  · have above : context.packageParts.length < level := by omega
    rw [if_pos further, if_neg (Nat.ne_of_gt further), ModuleContext.relative?, if_pos above]
    rfl

/-- The place inside the packages has no name only if it is a package whose name is empty. -/
theorem relative?_eq_empty (relative : 1 ≤ level) : context.relative? level module = some "" ↔
    level = context.packageParts.length ∧ context.packageParts.head? = some "" ∧
      module.getD "" = "" := by
  by_cases above : context.packageParts.length < level
  · have outside : level ≠ context.packageParts.length := by omega
    simp [ModuleContext.relative?, above, outside]
  · rw [ModuleContext.relative?, if_neg above, Option.some.injEq, Dotted.extend_eq_empty,
      Dotted.join_eq_empty]
    rcases parts : context.packageParts with _ | ⟨first, rest⟩
    · rw [parts, List.length_nil] at above
      omega
    · rw [parts, List.length_cons] at above
      have unclimbed : rest.length + 1 - level = 0 ∨ rest = [] ↔ level = rest.length + 1 := by
        rw [← List.length_eq_zero_iff]
        omega
      simp [unclimbed, and_left_comm, and_assoc]

/-- An import goes where it should unless it leads right above the top package and gives a module:
then it binds what the import of that module without dots binds. (A package whose name begins with a
dot has an outermost component without a name, which is no module.) -/
theorem relative_imports (relative : 1 ≤ level) :
    (importedModule? context level module = context.relative? level module ↔
      ¬(level = context.packageParts.length + 1 ∧ module.getD "" ≠ "") ∧
      ¬(level = context.packageParts.length ∧ context.packageParts.head? = some "" ∧
        module.getD "" = "")) ∧
    (level = context.packageParts.length + 1 → module.getD "" ≠ "" →
      importedModule? context level module = module ∧ ∀ names,
        statementBindings context (.importFrom level module names) =
          statementBindings context (.importFrom 0 module names)) := by
  constructor
  · rw [← relative?_eq_empty relative, importedModule?_relative relative]
    by_cases above : level = context.packageParts.length + 1
    · have nothing : context.relative? level module = none := by
        rw [ModuleContext.relative?, if_pos (by omega)]
      rw [if_pos above, nothing]
      simp [above]
    · rw [if_neg above]
      cases context.relative? level module with
      | none => simp [above]
      | some name => simp [above]
  · intro above given
    have absolute : importedModule? context level module = module := by
      rw [importedModule?_relative relative, if_pos above]
      cases module with
      | none => simp at given
      | some name => simpa using given
    refine ⟨absolute, fun names => ?_⟩
    simp only [statementBindings, absolute]
    rfl

theorem relative_imports_inside :
    (1 ≤ 2 ∧ importedModule? ⟨"a.b.c", false⟩ 2 (some "x.y") =
      ModuleContext.relative? ⟨"a.b.c", false⟩ 2 (some "x.y")) ∧
    ModuleContext.relative? ⟨"a.b.c", false⟩ 2 (some "x.y") = some "a.x.y" := by
  have inside : importedModule? ⟨"a.b.c", false⟩ 2 (some "x.y") =
      ModuleContext.relative? ⟨"a.b.c", false⟩ 2 (some "x.y") :=
    (relative_imports (by decide)).1.mpr (by decide)
  exact ⟨⟨by decide, inside⟩, by decide⟩

/-- In a module two packages deep, three dots lead above the top package. -/
theorem relative_imports_above :
    importedModule? ⟨"a.b.c", false⟩ 3 (some "x") = some "x" ∧
      ModuleContext.relative? ⟨"a.b.c", false⟩ 3 (some "x") = none := by
  decide

end Declaration

end EnumLookup
