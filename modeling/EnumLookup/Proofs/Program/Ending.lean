import EnumLookup.Program.Load
import EnumLookup.Proofs.Program.Memory
import EnumLookup.Proofs.Program.Renaming
import Mathlib.Order.Filter.AtTopBot.Basic
import Mathlib.Order.Filter.Finite

/-!
Names whose ways end. The way of a name may go on for ever: a module that imports a name from that
very name makes it longer with each renaming. Where no such way is followed, one number of renamings
is enough for all questions about the bases of classes, whatever more are allowed. An answer that
was given up says no more than that the way has not ended yet.
-/
namespace EnumLookup.Program

open Declaration Function Source Text Text.Dotted

variable {program : Program} {limits other : Limits} {modules : List LoadedModule}
  {home : LoadedModule} {loaded : LoadedClass} {declaration : ClassDeclaration} {base : Expr}
  {name reference : String} {memo : Memo} {event : Event} {m n : Nat}

/-- The way of the name comes to a name that stands for itself, or comes back. -/
def Ends (program : Program) (name : String) : Prop :=
  (∃ n, program.IsFixed (program.step^[n] name)) ∨ ∃ m n, program.ComesBack name m n

/-- The names that the bases of the classes stand for before they are renamed. -/
def baseNames (program : Program) : List String :=
  program.modules.flatMap fun module =>
    (module.declarations.flatMap (·.header.bases)).filterMap fun base =>
      base.dottedName?.bind (expand? module)

/-- No name that a base stands for grows for ever. -/
def BasesEnd (program : Program) : Prop := ∀ name ∈ program.baseNames, program.Ends name

/-- The answer was not given up: it is a value, or an error that was found. -/
def Settles {α : Type} (answer : Except ResolutionError α) : Prop :=
  ∀ name, answer ≠ .error (.endless name)

theorem Settles.ok {α : Type} (value : α) : Settles (.ok value) := fun _ given => by cases given

theorem Settles.error {α β : Type} {error : ResolutionError}
    (settles : Settles (.error error : Except ResolutionError α)) :
    Settles (.error error : Except ResolutionError β) :=
  fun name given => settles name (congrArg Except.error (Except.error.inj given))

/-! One name. Its way is a matter of the modules alone. -/

theorem rename?_within (limits other : Limits) (modules : List LoadedModule) :
    (⟨limits, modules⟩ : Program).rename? = (⟨other, modules⟩ : Program).rename? :=
  funext (rename?_congr rfl)

theorem step_within (limits other : Limits) (modules : List LoadedModule) :
    (⟨limits, modules⟩ : Program).step = (⟨other, modules⟩ : Program).step := by
  funext name
  rw [step, step, rename?_within limits other]

theorem IsFixed.within (fixed : (⟨limits, modules⟩ : Program).IsFixed name) (other : Limits) :
    (⟨other, modules⟩ : Program).IsFixed name := by
  rwa [IsFixed, ← rename?_within limits other]

theorem ComesBack.within (back : (⟨limits, modules⟩ : Program).ComesBack name m n)
    (other : Limits) : (⟨other, modules⟩ : Program).ComesBack name m n := by
  have steps := step_within limits other modules
  refine ⟨⟨fun i j less bound => ?_, fun i bound fixed => ?_⟩, back.earlier, ?_⟩
  · rw [← steps]
    exact back.different i j less bound
  · rw [← steps] at fixed
    exact back.moving i bound (fixed.within limits)
  · rw [← steps]
    exact back.again

theorem Ends.within (ends : (⟨limits, modules⟩ : Program).Ends name) (other : Limits) :
    (⟨other, modules⟩ : Program).Ends name := by
  rcases ends with ⟨n, fixed⟩ | ⟨m, n, back⟩
  · rw [step_within limits other] at fixed
    exact .inl ⟨n, fixed.within other⟩
  · exact .inr ⟨m, n, back.within other⟩

/-- A way that neither ends nor comes back goes on for ever. -/
theorem goesOn_of_not_ends (forever : ¬ program.Ends name) (n : Nat) : program.GoesOn name n := by
  have moves (i : Nat) : ¬ program.IsFixed (program.step^[i] name) :=
    fun fixed => forever (.inl ⟨i, fixed⟩)
  refine ⟨fun i j less _ same => forever (.inr ?_), fun i _ => moves i⟩
  exact comesBack_of_repeats moves ⟨j, i, less, same.symm⟩

/-- A name whose way ends is answered as soon as enough renamings are allowed. -/
theorem Ends.settles (ends : (⟨limits, modules⟩ : Program).Ends name) :
    ∃ enough, ∀ other : Limits, enough ≤ other.renamings →
      Settles ((⟨other, modules⟩ : Program).canonicalName name) := by
  rcases ends with ⟨n, fixed⟩ | ⟨m, n, back⟩
  · refine ⟨n + 1, fun other allowed => ?_⟩
    rw [step_within limits other] at fixed
    have answer := canonicalName_of_fixed (fixed.within other) allowed 0
    rw [iterate_zero_apply] at answer
    exact answer ▸ .ok _
  · refine ⟨n + 1, fun other allowed name' given => ?_⟩
    have answer := (back.within other).canonicalName allowed 0
    rw [iterate_zero_apply, given] at answer
    cases answer

/-- A name is given up whatever is allowed just when its way goes on for ever. -/
theorem ends_iff : (⟨limits, modules⟩ : Program).Ends name ↔
    ∃ other : Limits, Settles ((⟨other, modules⟩ : Program).canonicalName name) := by
  constructor
  · intro ends
    obtain ⟨enough, settles⟩ := ends.settles
    exact ⟨⟨enough, 0⟩, settles ⟨enough, 0⟩ le_rfl⟩
  · rintro ⟨other, settles⟩
    by_contra forever
    have still : ¬ (⟨other, modules⟩ : Program).Ends name := fun ends => forever (ends.within limits)
    have goes := goesOn_of_not_ends still other.renamings
    exact settles _ (canonicalName_of_goesOn goes)

/-- One number of renamings is enough for finitely many names whose ways end. -/
theorem exists_enough {names : List String}
    (ends : ∀ name ∈ names, (⟨limits, modules⟩ : Program).Ends name) :
    ∃ enough, ∀ other : Limits, enough ≤ other.renamings → ∀ name ∈ names,
      Settles ((⟨other, modules⟩ : Program).canonicalName name) := by
  have each : ∀ name ∈ names, ∀ᶠ count in Filter.atTop, ∀ other : Limits,
      count ≤ other.renamings → Settles ((⟨other, modules⟩ : Program).canonicalName name) := by
    intro name member
    obtain ⟨enough, settles⟩ := (ends name member).settles
    exact Filter.eventually_atTop.mpr ⟨enough, fun count more other allowed =>
      settles other (more.trans allowed)⟩
  obtain ⟨enough, all⟩ := ((Filter.eventually_all_finite names.finite_toSet).mpr each).exists
  exact ⟨enough, fun other allowed name member => all name member other allowed⟩

/-! Classes. The answers about the names of bases are all that a walk through classes asks for. -/

theorem mem_baseNames (isClass : program.IsClass loaded) (member : base ∈ loaded.bases)
    (dotted : base.dottedName? = some reference)
    (expanded : expand? loaded.module reference = some name) : name ∈ program.baseNames := by
  obtain ⟨foundHome, foundDeclaration⟩ := class?_eq_some.mp isClass
  refine List.mem_flatMap.mpr ⟨loaded.module, (module?_mem foundHome).1, List.mem_filterMap.mpr
    ⟨base, List.mem_flatMap.mpr ⟨loaded.declaration, ?_, member⟩, ?_⟩⟩
  · exact (LoadedModule.class?_mem foundDeclaration).1
  · rw [dotted, Option.bind_some, expanded]

section

variable (answers : ∀ name ∈ program.baseNames, Settles (program.canonicalName name))
include answers

theorem resolveBase_settles (isClass : program.IsClass loaded) (member : base ∈ loaded.bases) :
    Settles (program.resolveBase loaded base) := by
  unfold resolveBase
  split
  · exact .ok _
  · next reference dotted =>
    dsimp only
    split
    · exact .ok _
    · unfold resolve
      split
      · exact .ok _
      · next name expanded =>
        have settles := answers name (mem_baseNames isClass member dotted expanded)
        cases canonical : program.canonicalName name with
        | ok value => exact .ok _
        | error error =>
          rw [canonical] at settles
          exact settles.error

theorem judgeBase_settles (isClass : program.IsClass loaded) (member : base ∈ loaded.bases) :
    Settles (program.judgeBase loaded base) := by
  have resolves := resolveBase_settles answers isClass member
  unfold judgeBase
  split
  · next error resolved =>
    rw [resolved] at resolves
    exact resolves.error
  · exact .ok _
  · split
    · exact .ok _
    · split
      · exact .ok _
      · exact .ok _

theorem hasEnumBase_settles {above : LoadedClass → Question Bool}
    (parents : ∀ parent, program.IsClass parent → ∀ memo, Settles (above parent memo).1)
    (isClass : program.IsClass loaded) {bases : List Expr} (part : bases ⊆ loaded.bases)
    (memo : Memo) : Settles (program.hasEnumBase above loaded bases memo).1 := by
  induction bases generalizing memo with
  | nil => exact .ok _
  | cons base rest ih =>
    obtain ⟨member, others⟩ := List.cons_subset.mp part
    have judges := judgeBase_settles answers isClass member
    unfold hasEnumBase
    split
    · next error judged =>
      rw [judged] at judges
      exact judges.error
    · exact .ok _
    · exact ih others memo
    · next parent judged =>
      have first := parents parent (judgeBase_isClass judged) memo
      split
      · exact ih others _
      · exact first

theorem isEnumWithin_settles (depth : Nat) (visiting : List String)
    (isClass : program.IsClass loaded) (memo : Memo) :
    Settles (program.isEnumWithin depth visiting loaded memo).1 := by
  induction depth using Nat.strongRecOn generalizing visiting loaded memo with
  | ind depth ih =>
    refine isEnumWithin_cases (motive := fun answer => Settles answer.1) ?_ ?_ ?_ ?_
    · exact fun found _ => .ok found
    · exact fun _ _ name given => by cases given
    · exact fun _ _ _ name given => by cases given
    · rintro further - - rfl
      rw [remember_fst]
      exact hasEnumBase_settles answers
        (fun parent isParent => ih further (Nat.lt_succ_self further) _ isParent) isClass
        (List.Subset.refl _) memo

end

/-! What settling reports: classes that could not be judged. -/

def Unjudged (program : Program) (event : Event) : Prop :=
  ∃ loaded memo qualname error, program.IsClass loaded ∧
    (program.isEnumClass loaded memo).1 = .error error ∧ event = .unclassified qualname error

theorem unjudged_of_settle (member : event ∈ (program.settle declaration memo).events) :
    program.Unjudged event := by
  unfold settle at member
  split at member
  · cases member
  · split at member
    · cases member
    · next loaded found =>
      split at member
      · cases member
      · cases member
      · next error after judged =>
        exact ⟨loaded, memo, _, error, (class?_isClass found).1, by rw [judged],
          List.mem_singleton.mp member⟩

theorem unjudged_of_settleAll {declarations : List ClassDeclaration}
    (member : event ∈ (program.settleAll declarations memo).events) : program.Unjudged event := by
  induction declarations generalizing memo with
  | nil => cases member
  | cons declaration rest ih =>
    rcases List.mem_append.mp member with first | others
    · exact unjudged_of_settle first
    · exact ih others

theorem unjudged_of_settleModules
    (member : event ∈ (program.settleModules modules memo).events) : program.Unjudged event := by
  induction modules generalizing memo with
  | nil => cases member
  | cons module rest ih =>
    rcases List.mem_append.mp member with first | others
    · exact unjudged_of_settleAll first
    · exact ih others

/-- Where the ways of all bases end, no class is left unjudged because a name was given up. -/
theorem exists_enough_settled (ends : (⟨limits, modules⟩ : Program).BasesEnd) :
    ∃ enough, ∀ other : Limits, enough ≤ other.renamings → ∀ event,
      (⟨other, modules⟩ : Program).Unjudged event →
        ∀ qualname name, event ≠ .unclassified qualname (.endless name) := by
  obtain ⟨enough, answers⟩ := exists_enough ends
  refine ⟨enough, fun other allowed event unjudged qualname name same => ?_⟩
  obtain ⟨loaded, memo, _, error, isClass, judged, rfl⟩ := unjudged
  obtain ⟨-, rfl⟩ := Event.unclassified.inj same
  exact isEnumWithin_settles (answers other allowed) _ [] isClass memo name judged

/-! A way without an end. -/

def grown (count : Nat) : String := join ("m" :: List.replicate (count + 1) "a")

theorem grown_eq (count : Nat) :
    grown count = "m" ++ "." ++ join (List.replicate (count + 1) "a") :=
  join_cons (by simp)

theorem isWord_a : IsWord "a" := ⟨by decide, by decide⟩

theorem grown_injective : Injective grown := by
  intro m n same
  have words (count : Nat) : ∀ part ∈ "m" :: List.replicate (count + 1) "a", IsWord part := by
    refine List.forall_mem_cons.mpr ⟨⟨by decide, by decide⟩, fun part member => ?_⟩
    exact List.eq_of_mem_replicate member ▸ isWord_a
  have lengths := congrArg List.length (join_injective (words m) (words n) same)
  simpa using lengths

/-- Where a module binds a name to a name inside that very name, its names grow with each step. -/
theorem rename?_grown (only : program.modules = [home]) (named : home.name = "m")
    (bound : home.bindings.lookup "a" = some "m.a.a") (count : Nat) :
    program.rename? (grown count) = some (grown (count + 1)) := by
  have loaded : program.module? "m" = some home := by simp [module?, only, named]
  have lies : program.LiesIn (grown count) home (join (List.replicate (count + 1) "a")) := by
    refine ⟨named ▸ loaded, named ▸ grown_eq count, fun other member _ _ => ?_⟩
    rw [only, List.mem_singleton] at member
    rw [member]
  have other : "m.a.a" ≠ home.name ++ "." ++ "a" := by
    rw [named]
    decide
  rw [rename?, splitModule?_eq_some.mpr lies, List.replicate_succ]
  simp only [cut_join isWord_a.2, bound, if_neg other]
  calc some (extend "m.a.a" (join (List.replicate count "a")))
      = some (join (("m.a" ++ "." ++ "a") :: List.replicate count "a")) := by
        rw [extend_joined fun part member => List.eq_of_mem_replicate member ▸ isWord_a]
        rfl
    _ = some (join (("m" ++ "." ++ "a") :: "a" :: List.replicate count "a")) := by
        rw [join_cons_joined]
        rfl
    _ = some (grown (count + 1)) := by
        rw [join_cons_joined]
        rfl

/-- The way of the name goes on for ever. -/
theorem not_ends_grown (only : program.modules = [home]) (named : home.name = "m")
    (bound : home.bindings.lookup "a" = some "m.a.a") : ¬ program.Ends "m.a.a" := by
  have renamed := rename?_grown only named bound
  have way (n : Nat) : program.step^[n] "m.a.a" = grown (n + 1) := by
    induction n with
    | zero => rfl
    | succ n ih => rw [iterate_succ_apply', ih, step, renamed, Option.getD_some]
  rintro (⟨n, fixed⟩ | ⟨m, n, back⟩)
  · rw [way, IsFixed, renamed] at fixed
    cases fixed
  · have again := back.again
    rw [way, way] at again
    exact back.earlier.ne' (Nat.succ.inj (grown_injective again))

end EnumLookup.Program
