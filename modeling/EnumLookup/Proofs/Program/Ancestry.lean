import EnumLookup.Proofs.Program.Transparency
import Mathlib.Data.List.Perm.Subperm
import Mathlib.Logic.Relation

/-!
Enums by reachability. A class leads to the classes that its bases stand for, and it is an enum
when some class it reaches has an enum base. The walk decides this. It fails for two reasons only:
it comes back to a class that it is walking, which is a cycle, or it climbs through more classes
than it may.
-/
namespace EnumLookup.Program

open Declaration Source Text Relation

/-- A base of the first class stands for the second one. -/
def Leads (program : Program) (c d : LoadedClass) : Prop :=
  ∃ base ∈ c.bases, ∃ name, program.resolveBase c base = .ok (some name) ∧
    program.classNamed? name = some d

/-- A base of the class stands for a base class of the enum module. -/
def HasEnumBase (program : Program) (c : LoadedClass) : Prop :=
  ∃ base ∈ c.bases, ∃ name ∈ enumBases, program.resolveBase c base = .ok (some name)

def ReachesEnum (program : Program) (c : LoadedClass) : Prop :=
  ∃ d, ReflTransGen program.Leads c d ∧ program.HasEnumBase d

def ReachesCycle (program : Program) (c : LoadedClass) : Prop :=
  ∃ d, ReflTransGen program.Leads c d ∧ TransGen program.Leads d d

/-- Every name of a base can be resolved. -/
def ResolvesBases (program : Program) : Prop :=
  ∀ c, program.IsClass c → ∀ base ∈ c.bases, ∃ name, program.resolveBase c base = .ok name

/-- So many steps lead up from a class, through different names that are not among those passed. -/
inductive Climbs (program : Program) : List String → LoadedClass → Nat → Prop
  | here {passed c} (new : c.fullName ∉ passed) : Climbs program passed c 0
  | up {passed c d steps} (new : c.fullName ∉ passed) (leads : program.Leads c d)
      (above : Climbs program (c.fullName :: passed) d steps) :
      Climbs program passed c (steps + 1)

/-- Why a walk fails: its class reaches a cycle, or a way up is longer than the walk may be. -/
inductive FailsFor (program : Program) (visiting : List String) (c : LoadedClass) (depth : Nat) :
    ResolutionError → Prop
  | cycle {d} (path : ReflTransGen program.Leads c d) (cycle : TransGen program.Leads d d) :
      FailsFor program visiting c depth (.inheritanceCycle d.fullName)
  | length {name} (climbs : Climbs program visiting c depth) :
      FailsFor program visiting c depth (.tooDeep name)

variable {program : Program} {memo : Memo} {c d : LoadedClass} {base : Expr} {bases : List Expr}
  {found : Bool} {visiting passed : List String} {depth steps : Nat} {error : ResolutionError}

theorem ReachesEnum.of_leads (leads : program.Leads c d) (reaches : program.ReachesEnum d) :
    program.ReachesEnum c := by
  obtain ⟨e, path, enum⟩ := reaches
  exact ⟨e, .head leads path, enum⟩

theorem ReachesCycle.of_leads (leads : program.Leads c d) (reaches : program.ReachesCycle d) :
    program.ReachesCycle c := by
  obtain ⟨e, path, cycle⟩ := reaches
  exact ⟨e, .head leads path, cycle⟩

theorem judgeBase_eq_enum :
    program.judgeBase c base = .ok .enum ↔
      ∃ name ∈ enumBases, program.resolveBase c base = .ok (some name) := by
  simp only [judgeBase]
  constructor
  · intro judged
    split at judged
    next => cases judged
    next => cases judged
    next name resolved =>
      split at judged
      next isEnum => exact ⟨name, List.contains_iff_mem.mp isEnum, resolved⟩
      next => split at judged <;> cases judged
  · rintro ⟨name, isEnum, resolved⟩
    simp only [resolved, List.contains_iff_mem.mpr isEnum, if_true]

/-- A base that leads to a class is judged by it, unless it makes an enum by itself. -/
theorem judgeBase_of_class {name : String} (resolved : program.resolveBase c base = .ok (some name))
    (stands : program.classNamed? name = some d) :
    program.judgeBase c base = .ok .enum ∨ program.judgeBase c base = .ok (.inherits d) := by
  simp only [judgeBase, resolved, stands]
  split
  · exact .inl rfl
  · exact .inr rfl

theorem judgeBase_leads (member : base ∈ c.bases)
    (judged : program.judgeBase c base = .ok (.inherits d)) : program.Leads c d := by
  simp only [judgeBase] at judged
  split at judged
  next => cases judged
  next => cases judged
  next name resolved =>
    split at judged
    next => cases judged
    next =>
      split at judged
      next stands =>
        cases judged
        exact ⟨base, member, name, resolved, stands⟩
      next => cases judged

theorem judgeBase_ok (resolves : program.ResolvesBases) (isClass : program.IsClass c)
    (member : base ∈ c.bases) : ∃ verdict, program.judgeBase c base = .ok verdict := by
  obtain ⟨name, resolved⟩ := resolves c isClass base member
  simp only [judgeBase, resolved]
  cases name with
  | none => exact ⟨_, rfl⟩
  | some name =>
    dsimp only
    split
    · exact ⟨_, rfl⟩
    · split <;> exact ⟨_, rfl⟩

theorem Leads.isClass (leads : program.Leads c d) : program.IsClass d := by
  obtain ⟨base, -, name, -, stands⟩ := leads
  exact classNamed?_isClass stands

theorem BasesSay.of_true (say : BasesSay program memo c bases true) (inside : bases ⊆ c.bases) :
    program.HasEnumBase c ∨
      ∃ d, program.Leads c d ∧ memo.lookup d.fullName = some true := by
  induction bases with
  | nil => cases say
  | cons base rest ih =>
    have member : base ∈ c.bases := inside (List.mem_cons_self ..)
    have others : rest ⊆ c.bases := fun other inRest => inside (List.mem_cons_of_mem _ inRest)
    cases say with
    | enum judged =>
      obtain ⟨name, isEnum, resolved⟩ := judgeBase_eq_enum.mp judged
      exact .inl ⟨base, member, name, isEnum, resolved⟩
    | foreign _ say => exact ih say others
    | inherits judged known => exact .inr ⟨_, judgeBase_leads member judged, known⟩
    | plain _ _ say => exact ih say others

/-- Bases that make no enum have all been asked. -/
theorem BasesSay.of_false (say : BasesSay program memo c bases false) :
    ∀ base ∈ bases, program.judgeBase c base ≠ .ok .enum ∧
      ∀ d, program.judgeBase c base = .ok (.inherits d) → memo.lookup d.fullName = some false := by
  induction bases with
  | nil => simp
  | cons base rest ih =>
    intro other member
    cases say with
    | foreign judged say =>
      rcases List.mem_cons.mp member with rfl | inRest
      · simp [judged]
      · exact ih say other inRest
    | plain judged known say =>
      rcases List.mem_cons.mp member with rfl | inRest
      · refine ⟨by simp [judged], ?_⟩
        intro d same
        rw [judged] at same
        cases same
        exact known
      · exact ih say other inRest

/-- What is remembered about a class is whether it reaches an enum base. -/
theorem Justified.reachesEnum (justified : Justified program memo) (isClass : program.IsClass c)
    (known : memo.lookup c.fullName = some found) : found = true ↔ program.ReachesEnum c := by
  induction justified generalizing c found with
  | nil => cases known
  | @cons older name answer _ _ say ih =>
    by_cases last : c.fullName = name
    · obtain rfl : answer = found := by
        rw [last, List.lookup_cons_self] at known
        exact Option.some.inj known
      have saying := say c isClass last
      constructor
      · rintro rfl
        rcases saying.of_true (List.Subset.refl _) with enum | ⟨d, leads, older_known⟩
        · exact ⟨c, .refl, enum⟩
        · exact .of_leads leads ((ih leads.isClass older_known).mp rfl)
      · rintro ⟨e, path, enum⟩
        cases answer with
        | true => rfl
        | false =>
          have asked := saying.of_false
          rcases path.cases_head with rfl | ⟨d, ⟨base, member, name, resolved, stands⟩, path⟩
          · obtain ⟨base, member, name, isEnum, resolved⟩ := enum
            exact ((asked base member).1 (judgeBase_eq_enum.mpr ⟨name, isEnum, resolved⟩)).elim
          · rcases judgeBase_of_class resolved stands with judged | judged
            · exact ((asked base member).1 judged).elim
            · have older_known := (asked base member).2 d judged
              exact (ih (judgeBase_isClass judged) older_known).mpr ⟨e, path, enum⟩
    · rw [lookup_other answer last] at known
      exact ih isClass known

/-- A question about bases fails when one of them cannot be judged, or leads to a class about which
the question fails. -/
theorem hasEnumBase_error {above : LoadedClass → Question Bool}
    (failed : (program.hasEnumBase above c bases memo).1 = .error error) :
    ∃ base ∈ bases, program.judgeBase c base = .error error ∨
      ∃ parent memo, program.judgeBase c base = .ok (.inherits parent) ∧
        (above parent memo).1 = .error error := by
  induction bases generalizing memo with
  | nil => cases failed
  | cons base rest ih =>
    have later (memo : Memo) (failed : (program.hasEnumBase above c rest memo).1 = .error error) :
        ∃ other ∈ base :: rest, program.judgeBase c other = .error error ∨
          ∃ parent memo, program.judgeBase c other = .ok (.inherits parent) ∧
            (above parent memo).1 = .error error := by
      obtain ⟨other, inRest, why⟩ := ih failed
      exact ⟨other, List.mem_cons_of_mem _ inRest, why⟩
    unfold hasEnumBase at failed
    cases judged : program.judgeBase c base with
    | error other =>
      simp only [judged] at failed
      cases failed
      exact ⟨base, List.mem_cons_self .., .inl judged⟩
    | ok verdict =>
      simp only [judged] at failed
      cases verdict with
      | enum => cases failed
      | foreign => exact later memo failed
      | inherits parent =>
        dsimp only at failed
        split at failed
        next memo' _ => exact later memo' failed
        next => exact ⟨base, List.mem_cons_self .., .inr ⟨parent, memo, judged, failed⟩⟩

theorem FailsFor.of_leads (leads : program.Leads c d) (new : c.fullName ∉ visiting)
    (fails : program.FailsFor (c.fullName :: visiting) d depth error) :
    program.FailsFor visiting c (depth + 1) error := by
  cases fails with
  | cycle path cycle => exact .cycle (.head leads path) cycle
  | length climbs => exact .length (.up new leads climbs)

/-- A walk fails on a cycle or for its depth. The classes being walked lead to the one asked about,
so that one of them coming back closes a cycle. -/
theorem isEnumWithin_error (distinct : program.DistinctNames) (resolves : program.ResolvesBases)
    (depth : Nat) (visiting : List String) (c : LoadedClass) (isClass : program.IsClass c)
    (ancestors : ∀ name ∈ visiting, ∃ a, program.IsClass a ∧ a.fullName = name ∧
      TransGen program.Leads a c)
    (memo : Memo) (failed : (program.isEnumWithin depth visiting c memo).1 = .error error) :
    program.FailsFor visiting c depth error := by
  induction depth using Nat.strongRecOn generalizing visiting c memo with
  | ind depth ih =>
    revert failed
    refine isEnumWithin_cases (motive := fun answer => answer.1 = .error error → _) ?_ ?_ ?_ ?_
    · intro found _ failed
      cases failed
    · intro _ seen failed
      cases failed
      obtain ⟨a, a_isClass, same, path⟩ := ancestors _ seen
      obtain rfl := distinct.eq a_isClass isClass same
      exact .cycle .refl path
    · intro _ new none failed
      cases none
      cases failed
      exact .length (.here new)
    · rintro depth _ new rfl failed
      rw [remember_fst] at failed
      obtain ⟨base, member, unjudged | ⟨parent, memo', judged, above⟩⟩ := hasEnumBase_error failed
      · obtain ⟨verdict, judged⟩ := judgeBase_ok resolves isClass member
        rw [judged] at unjudged
        cases unjudged
      · have leads := judgeBase_leads member judged
        have further : ∀ name ∈ c.fullName :: visiting, ∃ a, program.IsClass a ∧
            a.fullName = name ∧ TransGen program.Leads a parent := by
          intro name inside
          rcases List.mem_cons.mp inside with rfl | inside
          · exact ⟨c, isClass, rfl, .single leads⟩
          · obtain ⟨a, a_isClass, same, path⟩ := ancestors name inside
            exact ⟨a, a_isClass, same, path.tail leads⟩
        exact .of_leads leads new
          (ih depth (Nat.lt_succ_self depth) _ parent leads.isClass further memo' above)

/-- No way up is longer than there are classes. -/
theorem Climbs.lt (climbs : program.Climbs passed c steps) (isClass : program.IsClass c)
    (different : passed.Nodup) (known : passed ⊆ program.classNames.map dotted) :
    passed.length + steps < program.classNames.length := by
  have name {c : LoadedClass} (isClass : program.IsClass c) :
      c.fullName ∈ program.classNames.map dotted :=
    List.mem_map.mpr ⟨_, isClass.mem_classNames, rfl⟩
  induction climbs with
  | here new =>
    have all := (List.nodup_cons.mpr ⟨new, different⟩).subperm
      (List.cons_subset.mpr ⟨name isClass, known⟩)
    have bound := all.length_le
    rw [List.length_cons, List.length_map] at bound
    omega
  | up new leads _ ih =>
    have more := ih leads.isClass (List.nodup_cons.mpr ⟨new, different⟩)
      (List.cons_subset.mpr ⟨name isClass, known⟩)
    rw [List.length_cons] at more
    omega

end EnumLookup.Program
