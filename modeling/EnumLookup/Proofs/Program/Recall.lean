import EnumLookup.Proofs.Program.Memory

/-!
Reading an answer from the memory against finding it out again. A walk that knows less meets only
classes that the memory knows, in the order in which their answers were derived, so it cannot
come back to a class it is walking. It ends with the remembered answer, or runs too deep.
-/
namespace EnumLookup.Program

open Declaration Source Text

variable {program : Program} {memory record : Memo} {loaded : LoadedClass} {base : Expr}
  {bases : List Expr} {found : Bool} {visiting : List String} {depth : Nat}

/-- A walk comes to a known answer, or runs too deep, and finds out nothing new. -/
structure Recovers (memory : Memo) (found : Bool) (answer : Except ResolutionError Bool × Memo) :
    Prop where
  settled : answer.1 = .ok found ∨ ranTooDeep answer.1 = true
  within : Within answer.2 memory

theorem hasEnumBase_recovers {above : LoadedClass → Question Bool}
    (parents : ∀ parent found, program.IsClass parent →
      record.lookup parent.fullName = some found → ∀ less, Within less memory →
        Recovers memory found (above parent less))
    (say : BasesSay program record loaded bases found) (less : Memo) (within : Within less memory) :
    Recovers memory found (program.hasEnumBase above loaded bases less) := by
  induction say generalizing less with
  | nothing => exact ⟨.inl rfl, within⟩
  | enum judged =>
    simp only [hasEnumBase, judged]
    exact ⟨.inl rfl, within⟩
  | foreign judged _ ih =>
    simp only [hasEnumBase, judged]
    exact ih less within
  | inherits judged known =>
    simp only [hasEnumBase, judged]
    have first := parents _ true (judgeBase_isClass judged) known less within
    split
    next memo same => rcases first.settled with h | h <;> simp [same, ranTooDeep] at h
    next => exact first
  | plain judged known _ ih =>
    simp only [hasEnumBase, judged]
    have first := parents _ false (judgeBase_isClass judged) known less within
    split
    next memo same =>
      rw [same] at first
      exact ih memo first.within
    next answer different =>
      rcases first.settled with h | h
      · exact (different _ (Prod.ext h rfl)).elim
      · exact ⟨.inr h, first.within⟩

/-- Finding out a recorded answer again. The induction is on the record: the bases of the class
that was recorded last speak by the older part. -/
theorem isEnumWithin_recovers (justified : Justified program record) (inside : Within record memory)
    (isClass : program.IsClass loaded) (known : record.lookup loaded.fullName = some found)
    (depth : Nat) (visiting : List String) (apart : Apart visiting record) (less : Memo)
    (within : Within less memory) :
    Recovers memory found (program.isEnumWithin depth visiting loaded less) := by
  induction justified generalizing loaded found depth visiting less with
  | nil => cases known
  | @cons older name answer _ unknown say ih =>
    have older_inside : Within older memory := (Within.fresh unknown answer).trans inside
    have older_apart : Apart visiting older := apart.of_within (Within.fresh unknown answer)
    by_cases last : loaded.fullName = name
    · have recorded := inside _ _ known
      obtain rfl : answer = found := by
        rw [last, List.lookup_cons_self] at known
        exact Option.some.inj known
      refine isEnumWithin_cases (motive := Recovers memory answer) ?_ ?_ ?_ ?_
      · intro other again
        obtain rfl : answer = other :=
          Option.some.inj (recorded.symm.trans (within _ _ again))
        exact ⟨.inl rfl, within⟩
      · intro _ seen
        rw [apart _ seen] at known
        cases known
      · intro _ _ _
        exact ⟨.inr rfl, within⟩
      · rintro further _ _ rfl
        have older_apart' : Apart (loaded.fullName :: visiting) older :=
          older_apart.cons (last ▸ unknown)
        have walked := hasEnumBase_recovers
          (fun parent found parentIsClass known less within =>
            ih older_inside parentIsClass known further (loaded.fullName :: visiting) older_apart'
              less within)
          (say loaded isClass last) less within
        refine ⟨by simpa using walked.settled, ?_⟩
        revert walked
        rcases program.hasEnumBase (program.isEnumWithin further (loaded.fullName :: visiting))
          loaded loaded.bases less with ⟨_ | other, memo⟩
        · exact fun walked => walked.within
        · intro walked
          obtain rfl : other = answer := by
            rcases walked.settled with h | h
            · exact Except.ok.inj h
            · cases h
          exact walked.within.cons recorded
    · rw [lookup_other answer last] at known
      exact ih older_inside isClass known depth visiting older_apart less within

/-- A walk that knows more against one that knows less: the same answer, and it still knows more. -/
structure Outruns (more less : Except ResolutionError Bool × Memo) : Prop where
  answer : more.1 = less.1
  within : Within less.2 more.2

theorem Outruns.remember {more less : Except ResolutionError Bool × Memo} {name : String}
    (compare : Outruns more less) (unknown : more.2.lookup name = none) :
    Outruns (Program.remember name more) (Program.remember name less) := by
  obtain ⟨endMore, memory⟩ := more
  obtain ⟨endLess, less⟩ := less
  obtain ⟨rfl, within⟩ := compare
  cases endMore with
  | error error => exact ⟨rfl, within⟩
  | ok found =>
    exact ⟨rfl, (within.trans (Within.fresh unknown found)).cons List.lookup_cons_self⟩

/-- Walks of the same bases, given walks of their classes that compare. -/
theorem hasEnumBase_outruns {above : LoadedClass → Question Bool}
    (leaves : ∀ parent, program.IsClass parent → ∀ memo, Justified program memo →
      Apart visiting memo → Leaves program visiting memo
        (fun memo found => memo.lookup parent.fullName = some found) (above parent memo))
    (outruns : ∀ parent, program.IsClass parent → ∀ memory less, Justified program memory →
      Apart visiting memory → Within less memory → ranTooDeep (above parent less).1 = false →
        Outruns (above parent memory) (above parent less))
    (loaded : LoadedClass) (bases : List Expr) (memory less : Memo)
    (justified : Justified program memory) (apart : Apart visiting memory)
    (within : Within less memory)
    (shallow : ranTooDeep (program.hasEnumBase above loaded bases less).1 = false) :
    Outruns (program.hasEnumBase above loaded bases memory)
      (program.hasEnumBase above loaded bases less) := by
  induction bases generalizing memory less with
  | nil => exact ⟨rfl, within⟩
  | cons base rest ih =>
    unfold hasEnumBase at shallow ⊢
    cases judged : program.judgeBase loaded base with
    | error error => exact ⟨rfl, within⟩
    | ok verdict =>
      simp only [judged] at shallow
      cases verdict with
      | enum => exact ⟨rfl, within⟩
      | foreign => exact ih memory less justified apart within shallow
      | inherits parent =>
        have parentIsClass := judgeBase_isClass judged
        have first := leaves parent parentIsClass memory justified apart
        have compare := outruns parent parentIsClass memory less justified apart within
        revert shallow first compare
        dsimp only
        rcases above parent memory with ⟨endMore, memory'⟩
        rcases above parent less with ⟨endLess, less'⟩
        intro shallow first compare
        cases endLess with
        | error error =>
          obtain ⟨rfl, within'⟩ := compare shallow
          exact ⟨rfl, within'⟩
        | ok found =>
          obtain ⟨rfl, within'⟩ := compare rfl
          cases found with
          | true => exact ⟨rfl, within'⟩
          | false => exact ih memory' less' first.justified first.apart within' shallow

/-- The cases in which a walk does not enter its class: it is remembered, or it is being walked. -/
theorem isEnumWithin_outruns_of_enter (isClass : program.IsClass loaded) {less : Memo}
    (justified : Justified program memory) (apart : Apart visiting memory)
    (within : Within less memory)
    (shallow : ranTooDeep (program.isEnumWithin depth visiting loaded less).1 = false)
    (enter : memory.lookup loaded.fullName = none → less.lookup loaded.fullName = none →
      loaded.fullName ∉ visiting → Outruns (program.isEnumWithin depth visiting loaded memory)
        (program.isEnumWithin depth visiting loaded less)) :
    Outruns (program.isEnumWithin depth visiting loaded memory)
      (program.isEnumWithin depth visiting loaded less) := by
  cases known : memory.lookup loaded.fullName with
  | some found =>
    have again := isEnumWithin_recovers justified (Within.refl memory) isClass known depth visiting
      apart less within
    rw [isEnumWithin_known known]
    rcases again.settled with answer | deep
    · exact ⟨answer.symm, again.within⟩
    · rw [shallow] at deep
      cases deep
  | none =>
    have unknown : less.lookup loaded.fullName = none := by
      cases other : less.lookup loaded.fullName with
      | none => rfl
      | some found =>
        rw [within _ _ other] at known
        cases known
    by_cases seen : loaded.fullName ∈ visiting
    · rw [isEnumWithin_cycle known seen, isEnumWithin_cycle unknown seen]
      exact ⟨rfl, within⟩
    · exact enter known unknown seen

/-- A walk that reads a justified memory answers like one that knows less, unless that one runs too
deep. The walk that knows more runs no deeper: what it need not walk, the other one walks. -/
theorem isEnumWithin_outruns (distinct : program.DistinctNames) (depth : Nat)
    (visiting : List String) (loaded : LoadedClass) (isClass : program.IsClass loaded)
    (memory less : Memo) (justified : Justified program memory) (apart : Apart visiting memory)
    (within : Within less memory)
    (shallow : ranTooDeep (program.isEnumWithin depth visiting loaded less).1 = false) :
    Outruns (program.isEnumWithin depth visiting loaded memory)
      (program.isEnumWithin depth visiting loaded less) := by
  induction depth generalizing visiting loaded memory less with
  | zero =>
    refine isEnumWithin_outruns_of_enter isClass justified apart within shallow ?_
    intro _ unknown new
    rw [isEnumWithin_zero unknown new] at shallow
    cases shallow
  | succ depth ih =>
    refine isEnumWithin_outruns_of_enter isClass justified apart within shallow ?_
    intro known unknown new
    rw [isEnumWithin_succ unknown new, remember_fst] at shallow
    rw [isEnumWithin_succ known new, isEnumWithin_succ unknown new]
    have compare := hasEnumBase_outruns
      (fun parent parentIsClass memo justified apart =>
        isEnumWithin_leaves distinct depth _ parent parentIsClass memo justified apart)
      (fun parent parentIsClass memory less justified apart within shallow =>
        ih _ parent parentIsClass memory less justified apart within shallow)
      loaded loaded.bases memory less justified (apart.cons known) within shallow
    have left := hasEnumBase_leaves
      (fun parent parentIsClass memo justified apart =>
        isEnumWithin_leaves distinct depth _ parent parentIsClass memo justified apart)
      loaded loaded.bases memory justified (apart.cons known)
    have unknown' := left.apart loaded.fullName (List.mem_cons_self ..)
    exact compare.remember unknown'

end EnumLookup.Program
