import EnumLookup.Proofs.Program.Classes
import EnumLookup.Proofs.Text.Dotted
import Mathlib.Data.Set.Finite.List
import Mathlib.Dynamics.PeriodicPts.Defs
import Mathlib.Order.Preorder.Finite

/-!
The ways of names. A name that is renamed again and again comes to one that stands for itself, or
comes back to one it has passed, or goes on for ever, and then its length has no bound. The
canonical name follows this way: it is the name at its end, and a way that comes back is an error
at the first name that is met twice.
-/
namespace EnumLookup.Program

open Function Text Text.Dotted

variable {program : Program} {name : String} {i m n : Nat}

/-- The name stands for itself: no module holds it, its head is not bound, or it is bound to
itself. -/
def IsFixed (program : Program) (name : String) : Prop := program.rename? name = none

/-- The name after one renaming. A name that stands for itself stays. -/
def step (program : Program) (name : String) : String := (program.rename? name).getD name

def passed (program : Program) (name : String) (n : Nat) : List String :=
  ((List.range n).map fun i => program.step^[i] name).reverse

/-- The first so many names of the way are different, and none of them stands for itself. -/
structure GoesOn (program : Program) (name : String) (n : Nat) : Prop where
  different : ∀ i j, i < j → j < n → program.step^[i] name ≠ program.step^[j] name
  moving : ∀ i < n, ¬ program.IsFixed (program.step^[i] name)

/-- The name after `n` renamings is the first one of the way that was met before, after `m`
renamings, and no name until then stands for itself. -/
structure ComesBack (program : Program) (name : String) (m n : Nat) : Prop
    extends GoesOn program name n where
  earlier : m < n
  again : program.step^[n] name = program.step^[m] name

theorem IsFixed.step_eq (fixed : program.IsFixed name) : program.step name = name := by
  rw [step, fixed, Option.getD_none]

theorem IsFixed.iterate (fixed : program.IsFixed name) (n : Nat) : program.step^[n] name = name :=
  iterate_fixed fixed.step_eq n

theorem rename?_eq_step (moves : ¬ program.IsFixed name) :
    program.rename? name = some (program.step name) := by
  obtain ⟨next, renamed⟩ := Option.ne_none_iff_exists'.mp moves
  rw [step, renamed, Option.getD_some]

theorem mem_passed {other : String} :
    other ∈ program.passed name n ↔ ∃ i < n, program.step^[i] name = other := by
  simp only [passed, List.mem_reverse, List.mem_map, List.mem_range]

theorem passed_succ :
    program.passed name (n + 1) = program.step^[n] name :: program.passed name n := by
  simp [passed, List.range_succ]

namespace GoesOn

theorem mono (goes : program.GoesOn name n) (fewer : m ≤ n) : program.GoesOn name m where
  different i j less bound := goes.different i j less (bound.trans_le fewer)
  moving i bound := goes.moving i (bound.trans_le fewer)

theorem later (goes : program.GoesOn name (i + n)) :
    program.GoesOn (program.step^[i] name) n where
  different j k less bound := by
    rw [← iterate_add_apply, ← iterate_add_apply]
    exact goes.different (j + i) (k + i) (by omega) (by omega)
  moving j bound := by
    rw [← iterate_add_apply]
    exact goes.moving (j + i) (by omega)

theorem new (goes : program.GoesOn name (n + 1)) :
    program.step^[n] name ∉ program.passed name n := by
  rw [mem_passed]
  rintro ⟨i, less, same⟩
  exact goes.different i n less (Nat.lt_succ_self n) same

/-- As long as a way goes on, the search follows it and keeps the names that it passes. -/
theorem canonicalWithin (goes : program.GoesOn name n) (more : Nat) :
    program.canonicalWithin (n + more) [] name =
      program.canonicalWithin more (program.passed name n) (program.step^[n] name) := by
  induction n generalizing more with
  | zero => rw [Nat.zero_add]; rfl
  | succ n ih =>
    have unseen : (program.passed name n).contains (program.step^[n] name) = false := by
      simpa using goes.new
    have moves := goes.moving n (Nat.lt_succ_self n)
    rw [show n + 1 + more = n + (more + 1) by omega, ih (goes.mono (Nat.le_succ n)) (more + 1)]
    simp only [Program.canonicalWithin, unseen, rename?_eq_step moves, Bool.false_eq_true, if_false,
      passed_succ, iterate_succ_apply']

end GoesOn

/-- A way goes on until it has come to a name that stands for itself. -/
theorem goesOn_of_fixed (fixed : program.IsFixed (program.step^[n] name))
    (moving : ∀ i < n, ¬ program.IsFixed (program.step^[i] name)) : program.GoesOn name n where
  moving := moving
  different i j less bound same := by
    -- From the name that is met twice on, the way would repeat itself and never end.
    have repeats : program.step^[n] name = program.step^[i + (n - j)] name := by
      calc program.step^[n] name
          = program.step^[n - j] (program.step^[j] name) := by
            rw [← iterate_add_apply, Nat.sub_add_cancel bound.le]
        _ = program.step^[n - j] (program.step^[i] name) := by rw [same]
        _ = program.step^[i + (n - j)] name := by rw [← iterate_add_apply, Nat.add_comm]
    rw [repeats] at fixed
    exact moving (i + (n - j)) (by omega) fixed

namespace ComesBack

theorem later (back : program.ComesBack name (i + m) (i + n)) :
    program.ComesBack (program.step^[i] name) m n where
  toGoesOn := back.toGoesOn.later
  earlier := by have := back.earlier; omega
  again := by
    rw [← iterate_add_apply, ← iterate_add_apply, Nat.add_comm n, Nat.add_comm m]
    exact back.again

/-- Every name of a way that comes back is met before it does. -/
theorem met (back : program.ComesBack name m n) (i : Nat) :
    ∃ j < n, program.step^[i] name = program.step^[j] name := by
  induction i with
  | zero => exact ⟨0, (Nat.zero_le m).trans_lt back.earlier, rfl⟩
  | succ i ih =>
    obtain ⟨j, bound, same⟩ := ih
    rw [iterate_succ_apply', same, ← iterate_succ_apply' program.step]
    rcases Nat.lt_or_eq_of_le (Nat.succ_le_of_lt bound) with less | last
    · exact ⟨j + 1, less, rfl⟩
    · exact ⟨m, back.earlier, by rw [← back.again, ← last]⟩

theorem moves (back : program.ComesBack name m n) (i : Nat) :
    ¬ program.IsFixed (program.step^[i] name) := by
  obtain ⟨j, bound, same⟩ := back.met i
  rw [same]
  exact back.moving j bound

/-- On the cycle, a name is itself the first one to be met twice. -/
theorem onCycle (back : program.ComesBack name m n) (inside : m ≤ i) :
    ∃ period ≤ n, program.ComesBack (program.step^[i] name) 0 period := by
  have returns : IsPeriodicPt program.step (n - m) (program.step^[m] name) := by
    change program.step^[n - m] _ = _
    rw [← iterate_add_apply, Nat.sub_add_cancel back.earlier.le, back.again]
  have periodic : IsPeriodicPt program.step (n - m) (program.step^[i] name) := by
    have moved := returns.apply_iterate (i - m)
    rwa [← iterate_add_apply, Nat.sub_add_cancel inside] at moved
  have positive : 0 < n - m := Nat.sub_pos_of_lt back.earlier
  refine ⟨minimalPeriod program.step (program.step^[i] name), ?_, ⟨?_, ?_⟩, ?_, ?_⟩
  · exact (periodic.minimalPeriod_le positive).trans (Nat.sub_le n m)
  · intro j k less bound same
    exact less.ne (iterate_injOn_Iio_minimalPeriod (less.trans bound) bound same)
  · intro j _
    rw [← iterate_add_apply]
    exact back.moves (j + i)
  · exact periodic.minimalPeriod_pos positive
  · exact iterate_minimalPeriod

end ComesBack

/-- A way that ends leads to the name at its end. -/
theorem canonicalName_of_end (fixed : program.IsFixed (program.step^[n] name))
    (moving : ∀ i < n, ¬ program.IsFixed (program.step^[i] name))
    (allowed : n < program.limits.renamings) :
    program.canonicalName name = .ok (program.step^[n] name) := by
  have goes := goesOn_of_fixed fixed moving
  obtain ⟨more, limit⟩ := Nat.exists_eq_add_of_lt allowed
  have unseen : (program.passed name n).contains (program.step^[n] name) = false := by
    rw [List.contains_eq_mem, decide_eq_false_iff_not, mem_passed]
    rintro ⟨i, less, same⟩
    exact moving i less (same ▸ fixed)
  rw [canonicalName, limit, Nat.add_assoc, goes.canonicalWithin]
  have ended : program.rename? (program.step^[n] name) = none := fixed
  simp only [canonicalWithin, unseen, ended, Bool.false_eq_true, if_false]

/-- A way that comes back is an error at the first name that is met twice. -/
theorem canonicalName_of_comesBack (back : program.ComesBack name m n)
    (allowed : n < program.limits.renamings) :
    program.canonicalName name = .error (.importCycle (program.step^[n] name)) := by
  obtain ⟨more, limit⟩ := Nat.exists_eq_add_of_lt allowed
  have seen : (program.passed name n).contains (program.step^[n] name) = true := by
    rw [List.contains_iff_mem, mem_passed]
    exact ⟨m, back.earlier, back.again.symm⟩
  rw [canonicalName, limit, Nat.add_assoc, back.toGoesOn.canonicalWithin]
  simp only [canonicalWithin, seen, if_true]

/-- A way that goes on for as many renamings as are allowed is given up. -/
theorem canonicalName_of_goesOn (goes : program.GoesOn name program.limits.renamings) :
    program.canonicalName name =
      .error (.endless (program.step^[program.limits.renamings] name)) := by
  rw [canonicalName, ← Nat.add_zero program.limits.renamings, goes.canonicalWithin]
  rfl

/-- All names of a way that ends lead to the name at its end. -/
theorem canonicalName_of_fixed (fixed : program.IsFixed (program.step^[n] name))
    (allowed : n < program.limits.renamings) (i : Nat) :
    program.canonicalName (program.step^[i] name) = .ok (program.step^[n] name) := by
  classical
  have ends : ∃ n, program.IsFixed (program.step^[n] name) := ⟨n, fixed⟩
  have first : Nat.find ends ≤ n := Nat.find_min' ends fixed
  have stays {k : Nat} (later : Nat.find ends ≤ k) :
      program.step^[k] name = program.step^[Nat.find ends] name := by
    rw [← Nat.sub_add_cancel later, iterate_add_apply]
    exact (Nat.find_spec ends).iterate _
  rcases Nat.le_total i (Nat.find ends) with before | after
  · have goal : program.step^[Nat.find ends - i] (program.step^[i] name) =
        program.step^[n] name := by
      rw [← iterate_add_apply, Nat.sub_add_cancel before, stays first]
    rw [← goal]
    refine canonicalName_of_end ?_ ?_ (by omega)
    · rw [goal]
      exact fixed
    · intro j less
      rw [← iterate_add_apply]
      exact Nat.find_min ends (by omega)
  · rw [stays after, stays first]
    exact canonicalName_of_end (n := 0) (Nat.find_spec ends) (by simp) (by omega)

/-- All names of a way that comes back are errors, at the first name that is met twice from
them. -/
theorem ComesBack.canonicalName (back : program.ComesBack name m n)
    (allowed : n < program.limits.renamings) (i : Nat) :
    program.canonicalName (program.step^[i] name) =
      .error (.importCycle (program.step^[max m i] name)) := by
  rcases Nat.le_total i m with before | onCycle
  · have less := back.earlier
    have later : program.ComesBack (program.step^[i] name) (m - i) (n - i) := by
      apply ComesBack.later
      rw [Nat.add_sub_cancel' before, Nat.add_sub_cancel' (before.trans less.le)]
      exact back
    rw [canonicalName_of_comesBack later (by omega), later.again, ← iterate_add_apply,
      Nat.sub_add_cancel before, max_eq_left before]
  · obtain ⟨period, short, cycle⟩ := back.onCycle onCycle
    rw [canonicalName_of_comesBack cycle (by omega), cycle.again, max_eq_right onCycle]
    rfl

/-- There are finitely many names of bounded length. -/
theorem finite_names (bound : Nat) : {name : String | name.length ≤ bound}.Finite := by
  have chars : Finite Char := by
    refine Finite.of_injective (fun c : Char => (⟨c.toNat, ?_⟩ : Fin 0x110000)) ?_
    · rcases c.valid with low | high
      · exact lt_trans low (by decide)
      · exact high.2
    · intro c d same
      exact Char.toNat_inj.mp (Fin.mk.inj same)
  have texts := List.finite_length_le Char bound
  refine (texts.preimage (f := String.toList) ?_).subset ?_
  · exact fun _ _ _ _ same => String.toList_inj.mp same
  · intro name short
    change name.toList.length ≤ bound
    rwa [String.length_toList]

/-- A way that meets a name twice, and never one that stands for itself, comes back. -/
theorem comesBack_of_repeats (moves : ∀ i, ¬ program.IsFixed (program.step^[i] name))
    (repeats : ∃ n, ∃ m < n, program.step^[n] name = program.step^[m] name) :
    ∃ m n, program.ComesBack name m n := by
  classical
  obtain ⟨m, earlier, again⟩ := Nat.find_spec repeats
  refine ⟨m, Nat.find repeats, ⟨fun i j less bound same => ?_, fun i _ => moves i⟩, earlier, again⟩
  exact Nat.find_min repeats bound ⟨i, less, same.symm⟩

/-- A way of bounded names ends or comes back. -/
theorem ends_or_comesBack {bound : Nat} (short : ∀ i, (program.step^[i] name).length ≤ bound) :
    (∃ n, program.IsFixed (program.step^[n] name)) ∨ ∃ m n, program.ComesBack name m n := by
  by_cases ends : ∃ n, program.IsFixed (program.step^[n] name)
  · exact .inl ends
  · obtain ⟨m, n, less, same⟩ :=
      Set.Finite.exists_lt_map_eq_of_forall_mem (f := fun i => program.step^[i] name) short
        (finite_names bound)
    exact .inr (comesBack_of_repeats (fun i fixed => ends ⟨i, fixed⟩) ⟨n, m, less, same.symm⟩)

/-- The canonical name follows the way of a name exactly. When the way comes to a name that stands
for itself, all its names lead there; when it comes back first, all its names are errors, and the
error of a name is the first one that is met twice from it; and a way whose names are bounded in
length does one of the two. So the only way not to end is to grow without bound: only a way that
goes on for as many renamings as the program allows, which may be any number, is given up. -/
theorem canonicalName_follows (program : Program) (name : String) :
    (∀ n < program.limits.renamings, program.IsFixed (program.step^[n] name) →
      ∀ i, program.canonicalName (program.step^[i] name) = .ok (program.step^[n] name)) ∧
    (∀ m, ∀ n < program.limits.renamings, program.ComesBack name m n →
      ∀ i, program.canonicalName (program.step^[i] name) =
        .error (.importCycle (program.step^[max m i] name))) ∧
    (∀ bound, (∀ i, (program.step^[i] name).length ≤ bound) →
      (∃ n, program.IsFixed (program.step^[n] name)) ∨ ∃ m n, program.ComesBack name m n) ∧
    (program.GoesOn name program.limits.renamings →
      program.canonicalName name =
        .error (.endless (program.step^[program.limits.renamings] name))) :=
  ⟨fun _ allowed fixed => canonicalName_of_fixed fixed allowed,
    fun _ _ allowed back => back.canonicalName allowed,
    fun _ short => ends_or_comesBack short,
    canonicalName_of_goesOn⟩

def reexports (limits : Limits) : Program where
  limits := limits
  modules :=
    [⟨⟨"pkg", true⟩, [("mark", "pkg.base.mark"), ("first", "pkg.base.ping")], []⟩,
      ⟨⟨"pkg.base", false⟩,
        [("mark", "enum_generators.enum_extensions"), ("ping", "pkg.base.pong"),
          ("pong", "pkg.base.ping")], []⟩]

theorem reexports_mark :
    (reexports .standard).IsFixed ((reexports .standard).step^[2] "pkg.mark") := by
  have fixed :
      (reexports .standard).rename? ((reexports .standard).step^[2] "pkg.mark") = none := by
    decide +kernel
  exact fixed

theorem reexports_first : (reexports .standard).ComesBack "pkg.first" 1 3 where
  different i j less bound := by
    have different : ∀ j < 3, ∀ i < j, (reexports .standard).step^[i] "pkg.first" ≠
        (reexports .standard).step^[j] "pkg.first" := by
      decide +kernel
    exact different j bound i less
  moving := by
    have moving : ∀ i < 3,
        (reexports .standard).rename? ((reexports .standard).step^[i] "pkg.first") ≠ none := by
      decide +kernel
    exact moving
  earlier := by decide
  again := by decide +kernel

theorem canonicalName_reexports :
    (∀ i, (reexports .standard).canonicalName ((reexports .standard).step^[i] "pkg.mark") =
        .ok "enum_generators.enum_extensions") ∧
      (reexports .standard).canonicalName "pkg.first" = .error (.importCycle "pkg.base.ping") ∧
      (reexports .standard).canonicalName "pkg.base.pong" =
        .error (.importCycle "pkg.base.pong") ∧
      ((∃ n, (reexports .standard).IsFixed ((reexports .standard).step^[n] "pkg.mark")) ∨
        ∃ m n, (reexports .standard).ComesBack "pkg.mark" m n) ∧
      (reexports ⟨1, 0⟩).canonicalName "pkg.mark" = .error (.endless "pkg.base.mark") := by
  obtain ⟨ends, -, bounded, -⟩ := canonicalName_follows (reexports .standard) "pkg.mark"
  obtain ⟨-, comesBack, -, -⟩ := canonicalName_follows (reexports .standard) "pkg.first"
  obtain ⟨-, -, -, endless⟩ := canonicalName_follows (reexports ⟨1, 0⟩) "pkg.mark"
  refine ⟨fun i => ?_, ?_, ?_, bounded 31 fun i => ?_, ?_⟩
  · rw [ends 2 (by decide) reexports_mark i]
    decide +kernel
  · have error := comesBack 1 3 (by decide) reexports_first 0
    rw [iterate_zero_apply] at error
    rw [error]
    decide +kernel
  · have pong : (reexports .standard).step^[2] "pkg.first" = "pkg.base.pong" := by decide +kernel
    rw [← pong, comesBack 1 3 (by decide) reexports_first 2]
    rfl
  · match i with
    | 0 => decide +kernel
    | 1 => decide +kernel
    | i + 2 =>
      rw [iterate_add_apply, reexports_mark.iterate]
      decide +kernel
  · have moving :
        ∀ i < 1, (reexports ⟨1, 0⟩).rename? ((reexports ⟨1, 0⟩).step^[i] "pkg.mark") ≠ none := by
      decide +kernel
    have goes : (reexports ⟨1, 0⟩).GoesOn "pkg.mark" 1 := ⟨fun i j _ _ => by omega, moving⟩
    rw [endless goes]
    decide +kernel

end EnumLookup.Program
