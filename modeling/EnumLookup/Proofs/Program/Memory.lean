import EnumLookup.Proofs.Program.Classes

/-!
What is remembered about enums. The memory grows one answer at a time, and each answer follows
from older ones, so a memory is a derivation in order. A walk that reads such a memory gives
the answer of the walk that has to find everything out, unless that one runs too deep.
-/
namespace EnumLookup

open Declaration Source Text

def ranTooDeep {α : Type} : Except ResolutionError α → Bool
  | .error (.tooDeep _) => true
  | _ => false

theorem lookup_other {memo : Memo} {name other : String} (found : Bool) (different : other ≠ name) :
    List.lookup other ((name, found) :: memo) = memo.lookup other := by
  simp only [List.lookup_cons, beq_eq_false_iff_ne.mpr different]

def Within (less more : Memo) : Prop :=
  ∀ name found, less.lookup name = some found → more.lookup name = some found

theorem Within.refl (memo : Memo) : Within memo memo := fun _ _ known => known

theorem Within.trans {a b c : Memo} (ab : Within a b) (bc : Within b c) : Within a c :=
  fun name found known => bc name found (ab name found known)

/-- A new name can be remembered. -/
theorem Within.fresh {memo : Memo} {name : String} (unknown : memo.lookup name = none)
    (found : Bool) : Within memo ((name, found) :: memo) := by
  intro other answer known
  have different : other ≠ name := by
    rintro rfl
    rw [unknown] at known
    cases known
  rw [lookup_other found different, known]

theorem Within.cons {less more : Memo} {name : String} {found : Bool} (within : Within less more)
    (known : more.lookup name = some found) : Within ((name, found) :: less) more := by
  intro other answer has
  by_cases same : other = name
  · subst same
    rw [List.lookup_cons_self] at has
    rw [known, has]
  · rw [lookup_other found same] at has
    exact within other answer has

/-- Nothing is remembered of the classes that are being walked. -/
def Apart (visiting : List String) (memo : Memo) : Prop :=
  ∀ name ∈ visiting, memo.lookup name = none

theorem Apart.cons {visiting : List String} {memo : Memo} (apart : Apart visiting memo)
    {name : String} (unknown : memo.lookup name = none) : Apart (name :: visiting) memo := by
  intro other member
  rcases List.mem_cons.mp member with rfl | member
  · exact unknown
  · exact apart other member

theorem Apart.of_within {visiting : List String} {less more : Memo} (apart : Apart visiting more)
    (within : Within less more) : Apart visiting less := by
  intro name member
  cases known : less.lookup name with
  | none => rfl
  | some found =>
    have unknown := apart name member
    rw [within name found known] at unknown
    cases unknown

theorem Apart.tail {visiting : List String} {memo : Memo} {name : String}
    (apart : Apart (name :: visiting) memo) : Apart visiting memo :=
  fun other member => apart other (List.mem_cons_of_mem _ member)

namespace Program

variable {program : Program} {memo : Memo} {loaded parent : LoadedClass} {base : Expr}
  {bases : List Expr} {found : Bool} {visiting : List String} {depth : Nat}

/-- What some bases say of their class by remembered answers: they are read up to the first that
makes it an enum. -/
inductive BasesSay (program : Program) (memo : Memo) (loaded : LoadedClass) :
    List Expr → Bool → Prop
  | nothing : BasesSay program memo loaded [] false
  | enum {base rest} (judged : program.judgeBase loaded base = .ok .enum) :
      BasesSay program memo loaded (base :: rest) true
  | foreign {base rest found} (judged : program.judgeBase loaded base = .ok .foreign)
      (others : BasesSay program memo loaded rest found) :
      BasesSay program memo loaded (base :: rest) found
  | inherits {base rest parent} (judged : program.judgeBase loaded base = .ok (.inherits parent))
      (known : memo.lookup parent.fullName = some true) :
      BasesSay program memo loaded (base :: rest) true
  | plain {base rest parent found}
      (judged : program.judgeBase loaded base = .ok (.inherits parent))
      (known : memo.lookup parent.fullName = some false)
      (others : BasesSay program memo loaded rest found) :
      BasesSay program memo loaded (base :: rest) found

/-- Each answer follows from those remembered before it. -/
inductive Justified (program : Program) : Memo → Prop
  | nil : Justified program []
  | cons {memo name found} (older : Justified program memo) (unknown : memo.lookup name = none)
      (say : ∀ loaded, program.IsClass loaded → loaded.fullName = name →
        BasesSay program memo loaded loaded.bases found) :
      Justified program ((name, found) :: memo)

/-- What a walk leaves: a justified memory with more answers, none of them of the classes being
walked, and with its own answer if it has one. -/
structure Leaves (program : Program) (visiting : List String) (memo : Memo)
    (holds : Memo → Bool → Prop) (answer : Except ResolutionError Bool × Memo) : Prop where
  justified : Justified program answer.2
  within : Within memo answer.2
  apart : Apart visiting answer.2
  holds : ∀ found, answer.1 = .ok found → holds answer.2 found

theorem Leaves.failed {holds : Memo → Bool → Prop} {error : ResolutionError}
    (justified : Justified program memo) (apart : Apart visiting memo) :
    Leaves program visiting memo holds (.error error, memo) :=
  ⟨justified, Within.refl memo, apart, fun _ same => by cases same⟩

theorem Leaves.recalled {holds : Memo → Bool → Prop} (justified : Justified program memo)
    (apart : Apart visiting memo) (answers : holds memo found) :
    Leaves program visiting memo holds (.ok found, memo) :=
  ⟨justified, Within.refl memo, apart, fun _ same => by cases same; exact answers⟩

/-- The bases of a class are walked in order, and what they say is what the walk answers. -/
theorem hasEnumBase_leaves {above : LoadedClass → Question Bool}
    (parents : ∀ parent, program.IsClass parent → ∀ memo, Justified program memo →
      Apart visiting memo → Leaves program visiting memo
        (fun memo found => memo.lookup parent.fullName = some found) (above parent memo))
    (loaded : LoadedClass) (bases : List Expr) (memo : Memo) (justified : Justified program memo)
    (apart : Apart visiting memo) :
    Leaves program visiting memo (fun memo found => BasesSay program memo loaded bases found)
      (program.hasEnumBase above loaded bases memo) := by
  induction bases generalizing memo with
  | nil => exact .recalled justified apart .nothing
  | cons base rest ih =>
    unfold hasEnumBase
    cases judged : program.judgeBase loaded base with
    | error error => exact .failed justified apart
    | ok verdict =>
      cases verdict with
      | enum => exact .recalled justified apart (.enum judged)
      | foreign =>
        have others := ih memo justified apart
        exact ⟨others.justified, others.within, others.apart,
          fun found same => .foreign judged (others.holds found same)⟩
      | inherits parent =>
        have first := parents parent (judgeBase_isClass judged) memo justified apart
        dsimp only
        split
        next memo' same =>
          rw [same] at first
          have known := first.holds false rfl
          have others := ih memo' first.justified first.apart
          exact ⟨others.justified, first.within.trans others.within, others.apart,
            fun found same => .plain judged (others.within _ _ known) (others.holds found same)⟩
        next answer different =>
          refine ⟨first.justified, first.within, first.apart, ?_⟩
          intro found same
          cases found with
          | true => exact .inherits judged (first.holds true same)
          | false => exact (different (above parent memo).2 (Prod.ext same rfl)).elim

def remember (name : String) (answer : Except ResolutionError Bool × Memo) :
    Except ResolutionError Bool × Memo :=
  match answer with
  | (.ok found, memo) => (.ok found, (name, found) :: memo)
  | (.error error, memo) => (.error error, memo)

@[simp] theorem remember_fst (name : String) (answer : Except ResolutionError Bool × Memo) :
    (remember name answer).1 = answer.1 := by
  rcases answer with ⟨_ | _, memo⟩ <;> rfl

/-- Remembering what the bases of a class say settles the class, and no other one: the name is
that of this class only. -/
theorem Leaves.remember (distinct : program.DistinctNames) (isClass : program.IsClass loaded)
    (new : loaded.fullName ∉ visiting) {answer : Except ResolutionError Bool × Memo}
    (walked : Leaves program (loaded.fullName :: visiting) memo
      (fun memo found => BasesSay program memo loaded loaded.bases found) answer) :
    Leaves program visiting memo (fun memo found => memo.lookup loaded.fullName = some found)
      (Program.remember loaded.fullName answer) := by
  obtain ⟨outcome, memo'⟩ := answer
  cases outcome with
  | error error =>
    exact ⟨walked.justified, walked.within, walked.apart.tail, fun _ same => nomatch same⟩
  | ok found =>
    have unknown := walked.apart loaded.fullName (List.mem_cons_self ..)
    refine ⟨?_, walked.within.trans (Within.fresh unknown found), ?_, ?_⟩
    · refine .cons walked.justified unknown ?_
      intro other otherIsClass sameName
      obtain rfl := distinct.eq otherIsClass isClass sameName
      exact walked.holds found rfl
    · intro name member
      have different : name ≠ loaded.fullName := fun same => new (same ▸ member)
      rw [Program.remember, lookup_other found different]
      exact walked.apart.tail name member
    · rintro other same
      cases same
      exact List.lookup_cons_self

/-- What is remembered is not walked. -/
theorem isEnumWithin_known (known : memo.lookup loaded.fullName = some found) :
    program.isEnumWithin depth visiting loaded memo = (.ok found, memo) := by
  unfold isEnumWithin
  rw [known]

theorem isEnumWithin_cycle (unknown : memo.lookup loaded.fullName = none)
    (seen : loaded.fullName ∈ visiting) :
    program.isEnumWithin depth visiting loaded memo =
      (.error (.inheritanceCycle loaded.fullName), memo) := by
  unfold isEnumWithin
  simp only [unknown, List.contains_iff_mem.mpr seen, if_true]

theorem isEnumWithin_zero (unknown : memo.lookup loaded.fullName = none)
    (new : loaded.fullName ∉ visiting) :
    program.isEnumWithin 0 visiting loaded memo = (.error (.tooDeep loaded.qualname), memo) := by
  unfold isEnumWithin
  simp only [unknown, List.contains_iff_mem, new, if_false]

theorem isEnumWithin_succ (unknown : memo.lookup loaded.fullName = none)
    (new : loaded.fullName ∉ visiting) :
    program.isEnumWithin (depth + 1) visiting loaded memo =
      remember loaded.fullName (program.hasEnumBase
        (program.isEnumWithin depth (loaded.fullName :: visiting)) loaded loaded.bases memo) := by
  rw [isEnumWithin]
  simp only [unknown, List.contains_iff_mem, new, if_false]
  rfl

/-- A walk recalls its class, or comes back to it, or may not enter it, or enters it. -/
theorem isEnumWithin_cases {motive : Except ResolutionError Bool × Memo → Prop}
    (recalls : ∀ found, memo.lookup loaded.fullName = some found → motive (.ok found, memo))
    (returns : memo.lookup loaded.fullName = none → loaded.fullName ∈ visiting →
      motive (.error (.inheritanceCycle loaded.fullName), memo))
    (stops : memo.lookup loaded.fullName = none → loaded.fullName ∉ visiting → depth = 0 →
      motive (.error (.tooDeep loaded.qualname), memo))
    (enters : ∀ further, memo.lookup loaded.fullName = none → loaded.fullName ∉ visiting →
      depth = further + 1 → motive (remember loaded.fullName (program.hasEnumBase
        (program.isEnumWithin further (loaded.fullName :: visiting)) loaded loaded.bases memo))) :
    motive (program.isEnumWithin depth visiting loaded memo) := by
  cases known : memo.lookup loaded.fullName with
  | some found =>
    rw [isEnumWithin_known known]
    exact recalls found known
  | none =>
    by_cases seen : loaded.fullName ∈ visiting
    · rw [isEnumWithin_cycle known seen]
      exact returns known seen
    · cases depth with
      | zero =>
        rw [isEnumWithin_zero known seen]
        exact stops known seen rfl
      | succ further =>
        rw [isEnumWithin_succ known seen]
        exact enters further known seen rfl

/-- A walk of a class leaves a justified memory with its answer. -/
theorem isEnumWithin_leaves (distinct : program.DistinctNames) (depth : Nat)
    (visiting : List String) (loaded : LoadedClass) (isClass : program.IsClass loaded)
    (memo : Memo) (justified : Justified program memo) (apart : Apart visiting memo) :
    Leaves program visiting memo (fun memo found => memo.lookup loaded.fullName = some found)
      (program.isEnumWithin depth visiting loaded memo) := by
  induction depth using Nat.strongRecOn generalizing visiting loaded memo with
  | ind depth ih =>
    apply isEnumWithin_cases
    · intro found known
      exact .recalled justified apart known
    · intro _ _
      exact .failed justified apart
    · intro _ _ _
      exact .failed justified apart
    · rintro further unknown new rfl
      have walked := hasEnumBase_leaves
        (fun parent parentIsClass memo justified apart =>
          ih further (Nat.lt_succ_self further) _ parent parentIsClass memo justified apart)
        loaded loaded.bases memo justified (apart.cons unknown)
      exact .remember distinct isClass new walked

end Program

end EnumLookup
