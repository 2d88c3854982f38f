import EnumLookup.Proofs.Loading
import EnumLookup.Proofs.Program.Kinds
import EnumLookup.Proofs.Program.Recall

/-!
The memory of a program is not noticed. Loading and every later question leave it justified, so a
class is answered as if nothing had been asked before. This needs distinct dotted names: two
classes that share one share an answer as well, the one that was found first.
-/
namespace EnumLookup.Program

open Declaration Source Text

variable {program : Program} {memo : Memo} {loaded : LoadedClass} {found : Bool}

def memoAfter (program : Program) (memo : Memo) : List (String × String) → Memo
  | [] => memo
  | (module, qualname) :: rest =>
    memoAfter program (program.declaredType module qualname memo).2 rest

/-- Every class is answered as by an empty memory, whatever was asked before, unless finding the
answer anew runs too deep. -/
def Loaded.Transparent (loaded : Loaded) : Prop :=
  ∀ asked module qualname,
    ranTooDeep (loaded.program.declaredType module qualname []).1 = false →
    (loaded.program.declaredType module qualname (loaded.program.memoAfter loaded.memo asked)).1 =
      (loaded.program.declaredType module qualname []).1

def typeAnswer (loaded : LoadedClass) :
    Except ResolutionError Bool → Except ResolutionError (Option EnumType)
  | .ok true => .ok (some (enumType loaded))
  | .ok false => .ok none
  | .error error => .error (atClass loaded.qualname error)

theorem typeAnswer_eq_ok {answer : Except ResolutionError Bool}
    (same : typeAnswer loaded answer = typeAnswer loaded (.ok found)) : answer = .ok found := by
  rcases answer with error | answer
  · cases found <;> cases same
  · cases answer <;> cases found <;> first | rfl | cases same

theorem typeAnswer_eq_some {answer : Except ResolutionError Bool} {type : EnumType}
    (same : typeAnswer loaded answer = .ok (some type)) :
    answer = .ok true ∧ type = enumType loaded := by
  rcases answer with error | answer
  · cases same
  · cases answer
    · cases same
    · cases same
      exact ⟨rfl, rfl⟩

theorem ranTooDeep_typeAnswer (loaded : LoadedClass) (answer : Except ResolutionError Bool) :
    ranTooDeep (typeAnswer loaded answer) = ranTooDeep answer := by
  rcases answer with error | answer
  · cases error <;> rfl
  · cases answer <;> rfl

theorem declaredType_none {module qualname : String}
    (missing : program.class? module qualname = none) (memo : Memo) :
    program.declaredType module qualname memo = (.ok none, memo) := by
  simp only [declaredType, missing]

theorem declaredType_some {module qualname : String}
    (found : program.class? module qualname = some loaded) (memo : Memo) :
    program.declaredType module qualname memo =
      (typeAnswer loaded (program.isEnumClass loaded memo).1,
        (program.isEnumClass loaded memo).2) := by
  obtain ⟨-, -, rfl⟩ := class?_isClass found
  simp only [declaredType, found]
  rcases program.isEnumClass loaded memo with ⟨error | answer, memo'⟩
  · rfl
  · cases answer <;> rfl

theorem isEnumClass_leaves (distinct : program.DistinctNames) (isClass : program.IsClass loaded)
    (justified : Justified program memo) :
    Leaves program [] memo (fun memo found => memo.lookup loaded.fullName = some found)
      (program.isEnumClass loaded memo) :=
  isEnumWithin_leaves distinct _ [] loaded isClass memo justified (by simp [Apart])

/-- A class is answered from a justified memory as from an empty one. -/
theorem isEnumClass_recalls (distinct : program.DistinctNames) (isClass : program.IsClass loaded)
    (justified : Justified program memo)
    (shallow : ranTooDeep (program.isEnumClass loaded []).1 = false) :
    (program.isEnumClass loaded memo).1 = (program.isEnumClass loaded []).1 :=
  (isEnumWithin_outruns distinct _ [] loaded isClass memo [] justified (by simp [Apart])
    (fun _ _ known => nomatch known) shallow).answer

theorem declaredType_justified (distinct : program.DistinctNames) (module qualname : String)
    (justified : Justified program memo) :
    Justified program (program.declaredType module qualname memo).2 := by
  cases found : program.class? module qualname with
  | none => rwa [declaredType_none found]
  | some loaded =>
    rw [declaredType_some found]
    exact (isEnumClass_leaves distinct (class?_isClass found).1 justified).justified

theorem declaredType_recalls (distinct : program.DistinctNames) (module qualname : String)
    (justified : Justified program memo)
    (shallow : ranTooDeep (program.declaredType module qualname []).1 = false) :
    (program.declaredType module qualname memo).1 =
      (program.declaredType module qualname []).1 := by
  cases found : program.class? module qualname with
  | none => rw [declaredType_none found, declaredType_none found]
  | some loaded =>
    rw [declaredType_some found] at shallow ⊢
    rw [ranTooDeep_typeAnswer] at shallow
    rw [declaredType_some found,
      isEnumClass_recalls distinct (class?_isClass found).1 justified shallow]

theorem memoAfter_justified (distinct : program.DistinctNames) (asked : List (String × String))
    (justified : Justified program memo) : Justified program (program.memoAfter memo asked) := by
  induction asked generalizing memo with
  | nil => exact justified
  | cons question rest ih => exact ih (declaredType_justified distinct _ _ justified)

/-! Kinds do not matter to what follows from what. -/

/-- A verdict with kinds forgotten comes from a verdict. -/
theorem judgeBase_of_plain {base : Expr} {verdict : BaseVerdict}
    (judged : program.plain.judgeBase loaded.plain base = .ok verdict) :
    ∃ known, program.judgeBase loaded base = .ok known ∧ known.plain = verdict := by
  rw [judgeBase_plain] at judged
  cases same : program.judgeBase loaded base with
  | error error =>
    rw [same] at judged
    cases judged
  | ok known =>
    rw [same] at judged
    exact ⟨known, rfl, Except.ok.inj judged⟩

/-- What bases say with kinds forgotten they say. -/
theorem BasesSay.of_plain {bases : List Expr}
    (say : BasesSay program.plain memo loaded.plain bases found) :
    BasesSay program memo loaded bases found := by
  induction say with
  | nothing => exact .nothing
  | enum judged =>
    obtain ⟨_ | _ | _, known, ⟨⟩⟩ := judgeBase_of_plain judged
    exact .enum known
  | foreign judged _ ih =>
    obtain ⟨_ | _ | _, known, ⟨⟩⟩ := judgeBase_of_plain judged
    exact .foreign known ih
  | inherits judged remembered =>
    obtain ⟨_ | parent | _, known, ⟨⟩⟩ := judgeBase_of_plain judged
    exact .inherits known remembered
  | plain judged remembered _ ih =>
    obtain ⟨_ | parent | _, known, ⟨⟩⟩ := judgeBase_of_plain judged
    exact .plain known remembered ih

theorem Justified.of_plain (justified : Justified program.plain memo) :
    Justified program memo := by
  induction justified with
  | nil => exact .nil
  | cons _ unknown say ih =>
    exact .cons ih unknown fun loaded isClass same =>
      BasesSay.of_plain (say loaded.plain isClass.plain same)

/-! Settling kinds is asking questions too, and changes nothing but kinds. -/

theorem settle_value (program : Program) (declaration : ClassDeclaration) (memo : Memo) :
    (program.settle declaration memo).value.plain = declaration.plain := by
  unfold settle
  split
  · rfl
  · split
    · rfl
    · split <;> rfl

theorem settle_memo (program : Program) (declaration : ClassDeclaration) (memo : Memo) :
    (program.settle declaration memo).memo = memo ∨
      ∃ loaded, program.class? declaration.module declaration.qualname = some loaded ∧
        (program.settle declaration memo).memo = (program.isEnumClass loaded memo).2 := by
  unfold settle
  split
  · exact .inl rfl
  · split
    · exact .inl rfl
    · next loaded found =>
      refine .inr ⟨loaded, found, ?_⟩
      rcases program.isEnumClass loaded memo with ⟨error | answer, memo'⟩
      · rfl
      · cases answer <;> rfl

theorem settle_justified (distinct : program.plain.DistinctNames) (declaration : ClassDeclaration)
    (justified : Justified program.plain memo) :
    Justified program.plain (program.settle declaration memo).memo := by
  rcases settle_memo program declaration memo with same | ⟨loaded, found, same⟩
  · rwa [same]
  · rw [same, ← isEnumClass_plain]
    exact (isEnumClass_leaves distinct (class?_isClass found).1.plain justified).justified

theorem settleAll_value (program : Program) (declarations : List ClassDeclaration) (memo : Memo) :
    (program.settleAll declarations memo).value.map ClassDeclaration.plain =
      declarations.map ClassDeclaration.plain := by
  induction declarations generalizing memo with
  | nil => rfl
  | cons declaration rest ih => simp only [settleAll, List.map_cons, settle_value, ih]

theorem settleAll_justified (distinct : program.plain.DistinctNames)
    (declarations : List ClassDeclaration) (justified : Justified program.plain memo) :
    Justified program.plain (program.settleAll declarations memo).memo := by
  induction declarations generalizing memo with
  | nil => exact justified
  | cons declaration rest ih => exact ih (settle_justified distinct declaration justified)

theorem settleModules_value (program : Program) (modules : List LoadedModule) (memo : Memo) :
    (program.settleModules modules memo).value.map LoadedModule.plain =
      modules.map LoadedModule.plain := by
  induction modules generalizing memo with
  | nil => rfl
  | cons module rest ih =>
    simp only [settleModules, List.map_cons, LoadedModule.plain, settleAll_value]
    exact congrArg _ (ih _)

theorem settleModules_justified (distinct : program.plain.DistinctNames)
    (modules : List LoadedModule) (justified : Justified program.plain memo) :
    Justified program.plain (program.settleModules modules memo).memo := by
  induction modules generalizing memo with
  | nil => exact justified
  | cons module rest ih => exact ih (settleAll_justified distinct module.declarations justified)

/-- The program that loading comes to, kinds apart, is that of the modules as they were indexed. -/
theorem ofLoading_plain (limits : Limits) (loading : Loading) :
    (ofLoading limits loading).program.plain = (⟨limits, loading.modules⟩ : Program).plain := by
  simp only [ofLoading, plain, settleModules_value]

/-- What loading remembers is justified. -/
theorem ofLoading_justified {limits : Limits} {loading : Loading}
    (distinct : (ofLoading limits loading).program.DistinctNames) :
    Justified (ofLoading limits loading).program (ofLoading limits loading).memo := by
  rw [← distinctNames_plain, ofLoading_plain] at distinct
  have settled := settleModules_justified distinct loading.modules .nil
  rw [← ofLoading_plain] at settled
  exact settled.of_plain

theorem load_eq_ofLoading [Characters] {limits : Limits} {cache : ParseCache}
    {files : List SourceFile} {loaded : Loaded} (loads : load limits cache files = .ok loaded) :
    ∃ loading, (⟨[], cache, []⟩ : Loading).addAll files = .ok loading ∧
      loaded = ofLoading limits loading := by
  unfold load at loads
  cases added : (⟨[], cache, []⟩ : Loading).addAll files with
  | error error =>
    rw [added] at loads
    cases loads
  | ok loading =>
    rw [added] at loads
    cases loads
    exact ⟨loading, rfl, rfl⟩

theorem ofLoading_transparent {limits : Limits} {loading : Loading}
    (distinct : (ofLoading limits loading).program.DistinctNames) :
    (ofLoading limits loading).Transparent := by
  intro asked module qualname shallow
  have justified := memoAfter_justified distinct asked (ofLoading_justified distinct)
  exact declaredType_recalls distinct module qualname justified shallow

/-- An answer is remembered under the dotted name of its class. -/
theorem isEnumWithin_remembers {depth : Nat} {visiting : List String}
    (answer : (program.isEnumWithin depth visiting loaded memo).1 = .ok found) :
    (program.isEnumWithin depth visiting loaded memo).2.lookup loaded.fullName = some found := by
  revert answer
  refine isEnumWithin_cases (motive := fun answer =>
    answer.1 = .ok found → answer.2.lookup loaded.fullName = some found) ?_ ?_ ?_ ?_
  · rintro other known ⟨⟩
    exact known
  · rintro _ _ ⟨⟩
  · rintro _ _ _ ⟨⟩
  · intro further _ _ _
    rcases program.hasEnumBase _ loaded loaded.bases memo with ⟨error | other, memo'⟩
    · rintro ⟨⟩
    · rintro ⟨⟩
      exact List.lookup_cons_self

/-- Classes that share their dotted name share the answer that is found first. -/
theorem Loaded.Transparent.namesakes {loaded : Loaded} (transparent : loaded.Transparent)
    {a b : LoadedClass} (ha : loaded.program.IsClass a) (hb : loaded.program.IsClass b)
    (same : a.fullName = b.fullName) (first : (loaded.program.isEnumClass a []).1 = .ok found)
    (shallow : ranTooDeep (loaded.program.isEnumClass b []).1 = false) :
    (loaded.program.isEnumClass b []).1 = .ok found := by
  have afterNothing := transparent [] a.module.name a.qualname
  have afterFirst := transparent [(a.module.name, a.qualname)] b.module.name b.qualname
  simp only [memoAfter, declaredType_some ha, declaredType_some hb,
    ranTooDeep_typeAnswer] at afterNothing afterFirst
  have answer : (loaded.program.isEnumClass a loaded.memo).1 = .ok found := by
    rw [first] at afterNothing
    exact typeAnswer_eq_ok (afterNothing rfl)
  have known : (loaded.program.isEnumClass a loaded.memo).2.lookup b.fullName = some found :=
    same ▸ isEnumWithin_remembers answer
  have answered : loaded.program.isEnumClass b (loaded.program.isEnumClass a loaded.memo).2 =
      (.ok found, (loaded.program.isEnumClass a loaded.memo).2) := isEnumWithin_known known
  have recalled := afterFirst shallow
  rw [answered] at recalled
  exact typeAnswer_eq_ok recalled.symm

/-- Distinct dotted names make the memory unnoticeable: every question after loading is answered as
by an empty memory. Where it is unnoticeable, classes that share a dotted name have the same
answer, so two that share a name and differ are told apart by the order of the questions. -/
theorem load_transparent [Characters] {limits : Limits} {cache : ParseCache}
    {files : List SourceFile} {loaded : Loaded} (loads : load limits cache files = .ok loaded) :
    (loaded.program.DistinctNames → loaded.Transparent) ∧
      (loaded.Transparent → ∀ a b, loaded.program.IsClass a → loaded.program.IsClass b →
        a.fullName = b.fullName → ∀ found, (loaded.program.isEnumClass a []).1 = .ok found →
        ranTooDeep (loaded.program.isEnumClass b []).1 = false →
        (loaded.program.isEnumClass b []).1 = .ok found) := by
  obtain ⟨loading, -, rfl⟩ := load_eq_ofLoading loads
  exact ⟨ofLoading_transparent, fun transparent a b ha hb same found first shallow =>
    transparent.namesakes ha hb same first shallow⟩

/-- A class whose enum base is in a module that is loaded later. -/
def laterBaseFiles : List SourceFile :=
  [⟨"a.py", "a", false, .ofString "from b import D\nclass C(D): 0\n"⟩,
    ⟨"b.py", "b", false, .ofString "from enum import Enum as E\nclass D(E): 0\n"⟩]

theorem load_transparent_laterBase :
    ∃ loaded, load .standard .empty laterBaseFiles = .ok loaded ∧
      loaded.program.DistinctNames ∧ loaded.memo = [("a.C", true), ("b.D", true)] ∧
      loaded.Transparent := by
  have checked : (load .standard .empty laterBaseFiles).toOption.any (fun loaded =>
      loaded.program.DistinctNames ∧ loaded.memo = [("a.C", true), ("b.D", true)]) = true := by
    decide +kernel
  obtain ⟨loaded, loads, holds⟩ := exists_ok_of_any checked
  obtain ⟨distinct, memo⟩ := of_decide_eq_true holds
  exact ⟨loaded, loads, distinct, memo, (load_transparent loads).1 distinct⟩

/-- The enum `b.C` of the package `a`, and the plain class `C` of its module `a.b`. -/
def namesakeFiles : List SourceFile :=
  [⟨"a/__init__.py", "a", true,
      .ofString "from enum import Enum\nclass b:\n class C(Enum):\n  X = 1\n"⟩,
    ⟨"a/b.py", "a.b", false, .ofString "class B: 0\nclass C(B): 0\n"⟩]

/-- Loading judges the plain class first, and the enum that shares its dotted name is lost. -/
theorem not_transparent_namesake :
    ∃ loaded, load .standard .empty namesakeFiles = .ok loaded ∧
      (loaded.program.declaredType "a" "b.C" loaded.memo).1.toOption = some none ∧
      (loaded.program.declaredType "a" "b.C" []).1.toOption =
        some (some ⟨"a.b.C", "a", [⟨"X", true⟩]⟩) ∧
      ¬ loaded.Transparent := by
  have checked : (load .standard .empty namesakeFiles).toOption.any (fun loaded =>
      (loaded.program.declaredType "a" "b.C" loaded.memo).1.toOption = some none ∧
      (loaded.program.declaredType "a" "b.C" []).1.toOption =
        some (some ⟨"a.b.C", "a", [⟨"X", true⟩]⟩)) = true := by
    decide +kernel
  obtain ⟨loaded, loads, holds⟩ := exists_ok_of_any checked
  obtain ⟨lost, enum⟩ := of_decide_eq_true holds
  refine ⟨loaded, loads, lost, enum, ?_⟩
  intro transparent
  have same := transparent [] "a" "b.C" (by
    revert enum
    rcases (loaded.program.declaredType "a" "b.C" []).1 with error | type
    · intro enum
      cases enum
    · intro
      rfl)
  rw [memoAfter] at same
  rw [same, enum] at lost
  cases lost

end EnumLookup.Program
