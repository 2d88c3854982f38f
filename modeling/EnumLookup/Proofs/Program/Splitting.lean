import EnumLookup.Program.Names
import EnumLookup.Proofs.Text.Dotted
import Mathlib.Data.List.Find

/-!
The module that a name lies in. A name lies in every loaded module that encloses it: whose
components are the first ones of the name, but not all of them. Of these modules the longest one is
taken, and what is left of the name behind it is the name inside.
-/
namespace EnumLookup

open Text

namespace Program

open Text.Dotted

/-- The module is loaded, the name lies in it under the inner name, and it lies in no longer one. -/
structure LiesIn (program : Program) (name : String) (home : LoadedModule) (inner : String) :
    Prop where
  loaded : program.module? home.name = some home
  whole : name = home.name ++ "." ++ inner
  longest : ∀ other ∈ program.modules, ∀ rest, name = other.name ++ "." ++ rest →
    other.name.length ≤ home.name.length

/-- The first `k` of the components are the name of a loaded module, and more of them, up to the
first `count`, are not. -/
structure LastLoaded (program : Program) (parts : List String) (count k : Nat)
    (home : LoadedModule) : Prop where
  positive : 0 < k
  within : k ≤ count
  loaded : program.module? (join (parts.take k)) = some home
  missing : ∀ i, k < i → i ≤ count → program.module? (join (parts.take i)) = none

variable {program : Program} {parts : List String} {count k : Nat} {home other : LoadedModule}
  {name inner : String}

theorem module?_mem (found : program.module? name = some home) :
    home ∈ program.modules ∧ home.name = name := by
  refine ⟨List.mem_of_find?_eq_some found, ?_⟩
  simpa using List.find?_some found

theorem module?_eq_none : program.module? name = none ↔
    ∀ other ∈ program.modules, other.name ≠ name := by
  simp [module?]

theorem exists_module (member : other ∈ program.modules) :
    ∃ loaded, program.module? other.name = some loaded :=
  Option.ne_none_iff_exists'.mp fun none => module?_eq_none.mp none other member rfl

theorem LastLoaded.succ (last : program.LastLoaded parts count k home)
    (next : program.module? (join (parts.take (count + 1))) = none) :
    program.LastLoaded parts (count + 1) k home := by
  refine ⟨last.positive, Nat.le_succ_of_le last.within, last.loaded, fun i behind within => ?_⟩
  rcases Nat.lt_or_eq_of_le within with before | rfl
  · exact last.missing i behind (by omega)
  · exact next

/-- The search goes down from the most components, and ends at the first module that is loaded. -/
theorem splitWithin_cases (program : Program) (parts : List String) (count : Nat) :
    (program.splitWithin parts count = none ∧
      ∀ k, 0 < k → k ≤ count → program.module? (join (parts.take k)) = none) ∨
    ∃ k home, program.LastLoaded parts count k home ∧
      program.splitWithin parts count = some (home, join (parts.drop k)) := by
  induction count with
  | zero => exact .inl ⟨rfl, fun k positive within => by omega⟩
  | succ count ih =>
    rw [splitWithin]
    cases next : program.module? (join (parts.take (count + 1))) with
    | some home =>
      exact .inr ⟨count + 1, home, ⟨by omega, by omega, next, fun i behind within => by omega⟩, rfl⟩
    | none =>
      rcases ih with ⟨nothing, missing⟩ | ⟨k, home, last, found⟩
      · refine .inl ⟨nothing, fun k positive within => ?_⟩
        rcases Nat.lt_or_eq_of_le within with before | rfl
        · exact missing k positive (by omega)
        · exact next
      · exact .inr ⟨k, home, last.succ next, found⟩

/-- The module at which the search ends is the longest one that the name lies in. -/
theorem LastLoaded.liesIn
    (last : program.LastLoaded (components name) ((components name).length - 1) k home) :
    program.LiesIn name home (back name k) := by
  have positive := last.positive
  have within := last.within
  have named : home.name = front name k := (module?_mem last.loaded).2
  refine ⟨?_, ?_, fun other member rest whole => ?_⟩
  · rw [named]
    exact last.loaded
  · rw [named]
    exact front_append_back positive (by omega)
  · obtain ⟨i, someFront, proper, outer, -⟩ := exists_front whole
    obtain ⟨loaded, found⟩ := exists_module member
    rw [outer] at found
    -- Behind the first `k` components no module is loaded, so the other one ends before.
    have upTo : i ≤ k := by
      apply Nat.le_of_not_lt
      intro behind
      have missing := last.missing i behind (by omega)
      exact absurd (found.symm.trans missing) (by simp)
    rw [outer, named]
    rcases Nat.lt_or_eq_of_le upTo with less | rfl
    · exact Nat.le_of_lt (length_front_lt someFront less (by omega))
    · exact Nat.le_refl _

/-- Of the modules that a name lies in, only one is the longest. -/
theorem LiesIn.unique {inside : String} (lies : program.LiesIn name home inner)
    (alsoLies : program.LiesIn name other inside) : home = other ∧ inner = inside := by
  have upTo := lies.longest other (module?_mem alsoLies.loaded).1 inside alsoLies.whole
  have atLeast := alsoLies.longest home (module?_mem lies.loaded).1 inner lies.whole
  have whole := congrArg String.toList (lies.whole.symm.trans alsoLies.whole)
  simp only [String.toList_append, List.append_assoc] at whole
  have lengths : home.name.toList.length = other.name.toList.length := by
    rw [String.length_toList, String.length_toList]
    exact Nat.le_antisymm atLeast upTo
  obtain ⟨names, rest⟩ := List.append_inj whole lengths
  have same : home.name = other.name := String.toList_inj.mp names
  refine ⟨?_, String.toList_inj.mp (List.append_cancel_left rest)⟩
  exact Option.some.inj (lies.loaded.symm.trans (same ▸ alsoLies.loaded))

theorem splitModule?_cases (program : Program) (name : String) :
    (program.splitModule? name = none ∧
      ∀ other ∈ program.modules, ¬Encloses other.name name) ∨
    ∃ home inner, program.LiesIn name home inner ∧
      program.splitModule? name = some (home, inner) := by
  rcases splitWithin_cases program (components name) ((components name).length - 1) with
    ⟨nothing, missing⟩ | ⟨k, home, last, found⟩
  · refine .inl ⟨nothing, fun other member encloses => ?_⟩
    obtain ⟨inner, whole⟩ := encloses_iff.mp encloses
    obtain ⟨k, positive, proper, outer, -⟩ := exists_front whole
    exact module?_eq_none.mp (missing k positive (by omega)) other member outer
  · exact .inr ⟨home, back name k, last.liesIn, found⟩

theorem splitModule?_eq_some :
    program.splitModule? name = some (home, inner) ↔ program.LiesIn name home inner := by
  rcases splitModule?_cases program name with ⟨nothing, missing⟩ | ⟨other, rest, lies, found⟩
  · rw [nothing]
    refine ⟨nofun, fun lies => ?_⟩
    exact absurd (encloses_iff.mpr ⟨inner, lies.whole⟩)
      (missing home (module?_mem lies.loaded).1)
  · rw [found, Option.some.injEq, Prod.mk.injEq]
    constructor
    · rintro ⟨rfl, rfl⟩
      exact lies
    · exact lies.unique

theorem splitModule?_eq_none : program.splitModule? name = none ↔
    ∀ other ∈ program.modules, ¬Encloses other.name name := by
  rcases splitModule?_cases program name with ⟨nothing, missing⟩ | ⟨home, inner, lies, found⟩
  · exact ⟨fun _ => missing, fun _ => nothing⟩
  · rw [found]
    refine ⟨nofun, fun missing => ?_⟩
    exact absurd (encloses_iff.mpr ⟨inner, lies.whole⟩)
      (missing home (module?_mem lies.loaded).1)

/-- Programs with the same module for every name split names alike. -/
theorem splitModule?_congr {program other : Program} (same : program.module? = other.module?)
    (name : String) : program.splitModule? name = other.splitModule? name := by
  have within (parts : List String) (count : Nat) :
      program.splitWithin parts count = other.splitWithin parts count := by
    induction count with
    | zero => rfl
    | succ count ih => simp only [splitWithin, same, ih]
  exact within ..

theorem rename?_congr {program other : Program} (same : program.module? = other.module?)
    (name : String) : program.rename? name = other.rename? name := by
  simp only [rename?, splitModule?_congr same]

def keep (program : Program) (kept : LoadedModule → Bool) : Program :=
  { program with modules := program.modules.filter kept }

variable {kept : LoadedModule → Bool}

theorem module?_keep (keeps : ∀ other ∈ program.modules, other.name = name → kept other = true) :
    (program.keep kept).module? name = program.module? name := by
  rw [module?, module?, keep, List.find?_filter]
  refine List.find?_congr fun other member => ?_
  rw [Bool.eq_iff_iff]
  simp only [decide_eq_true_eq, beq_iff_eq, and_iff_right_iff_imp]
  exact keeps other member

theorem liesIn_keep
    (keeps : ∀ other ∈ program.modules, Encloses other.name name → kept other = true) :
    (program.keep kept).LiesIn name home inner ↔ program.LiesIn name home inner := by
  have sameModule (whole : name = home.name ++ "." ++ inner) :
      (program.keep kept).module? home.name = program.module? home.name := by
    refine module?_keep fun other member same => keeps other member ?_
    exact encloses_iff.mpr ⟨inner, by rw [same, whole]⟩
  constructor
  · rintro ⟨loaded, whole, longest⟩
    refine ⟨sameModule whole ▸ loaded, whole, fun other member rest lies => ?_⟩
    have kept := keeps other member (encloses_iff.mpr ⟨rest, lies⟩)
    exact longest other (List.mem_filter.mpr ⟨member, kept⟩) rest lies
  · rintro ⟨loaded, whole, longest⟩
    refine ⟨(sameModule whole).trans loaded, whole, fun other member => ?_⟩
    exact longest other (List.mem_filter.mp member).1

/-- Modules that do not enclose a name play no part in where it lies. -/
theorem splitModule?_keep
    (keeps : ∀ other ∈ program.modules, Encloses other.name name → kept other = true) :
    (program.keep kept).splitModule? name = program.splitModule? name := by
  ext ⟨home, inner⟩
  rw [splitModule?_eq_some, splitModule?_eq_some, liesIn_keep keeps]

/-- A name is split behind the longest loaded module that encloses it, and is not split when none
does. Modules that do not enclose it play no part: the very name is none of those that do, and
neither is a name that ends inside a component. -/
theorem split_longest (program : Program) (name : String) :
    (∀ home inner, program.splitModule? name = some (home, inner) ↔
      program.LiesIn name home inner) ∧
    (program.splitModule? name = none ↔
      ∀ other ∈ program.modules, ¬Encloses other.name name) ∧
    (∀ outer tail, name = outer ++ tail →
      (Encloses outer name ↔ tail.toList.head? = some '.')) ∧
    ∀ kept : LoadedModule → Bool,
      (∀ other ∈ program.modules, Encloses other.name name → kept other = true) →
        (program.keep kept).splitModule? name = program.splitModule? name := by
  refine ⟨fun home inner => splitModule?_eq_some, splitModule?_eq_none, ?_,
    fun kept keeps => splitModule?_keep keeps⟩
  rintro outer tail rfl
  exact encloses_append

def emptyModule (name : String) : LoadedModule := ⟨⟨name, false⟩, [], []⟩

def nestedModules : Program :=
  ⟨.standard, ["a", "a.b", "a.b.C", "a.b.Ca.D"].map emptyModule⟩

/-- The name of a module is split as well, behind `a.b`: the name does not enclose itself, and
`a.b.C` ends inside its component `Ca`. -/
theorem split_longest_whole :
    nestedModules.splitModule? "a.b.Ca.D" = some (emptyModule "a.b", "Ca.D") := by
  refine ((split_longest nestedModules "a.b.Ca.D").1 _ _).mpr ⟨rfl, by decide, ?_⟩
  intro other member rest whole
  have shorter : ∀ other ∈ nestedModules.modules, Encloses other.name "a.b.Ca.D" →
      other.name.length ≤ 3 := by decide +kernel
  exact shorter other member (encloses_iff.mpr ⟨rest, whole⟩)

end Program

end EnumLookup
