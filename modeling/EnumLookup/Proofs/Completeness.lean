import EnumLookup.Proofs.Generation.Recording
import EnumLookup.Proofs.Program.Reading
import EnumLookup.Proofs.Program.Settling
import EnumLookup.Session

/-!
Runs over programs. What a program answers does not depend on what it remembers, so a run that
nobody cancels describes the marked enums of its declarations: each of them once, with the members
of the class that its name stands for.
-/
namespace EnumLookup.Program

open Declaration Generation Source Text

/-- What is answered about declarations when nothing is remembered. -/
def answers (program : Program) : Answers ClassDeclaration where
  annotation declaration index := answerOf (program.annotationType declaration index)
  declared declaration :=
    answerOf (program.declaredType declaration.module declaration.qualname []).1

/-- No chain of bases is too long. -/
def Shallow (program : Program) : Prop :=
  ∀ name ∈ program.classNames, ranTooDeep (program.declaredType name.1 name.2 []).1 = false

instance (program : Program) : Decidable program.Shallow :=
  inferInstanceAs (Decidable (∀ name ∈ _, ranTooDeep (_ : Except ResolutionError _) = false))

/-- A decorator of the declaration refers to the marker. -/
def HasMarker (program : Program) (declaration : ClassDeclaration) : Prop :=
  ∃ index, program.annotationType declaration index = .ok (some Package.markerFullName)

variable {program : Program} {memo : Memo} {declaration : ClassDeclaration} {type : EnumType}

theorem Shallow.declaredType (shallow : program.Shallow) (module qualname : String) :
    ranTooDeep (program.declaredType module qualname []).1 = false := by
  cases found : program.class? module qualname with
  | none =>
    rw [declaredType_none found]
    rfl
  | some loaded =>
    obtain ⟨isClass, rfl, rfl⟩ := class?_isClass found
    exact shallow _ isClass.mem_classNames

theorem host_gives (distinct : program.DistinctNames) (shallow : program.Shallow) :
    program.host.Gives (Justified program) program.answers where
  annotation _ _ _ justified := ⟨rfl, justified⟩
  declared declaration memo justified := by
    have same := declaredType_recalls distinct declaration.module declaration.qualname justified
      (shallow.declaredType _ _)
    exact ⟨congrArg answerOf same, declaredType_justified distinct _ _ justified⟩

theorem annotationType_outside {index : Nat}
    (outside : declaration.header.decorators.length ≤ index) :
    program.annotationType declaration index = .ok none := by
  simp only [annotationType, List.getElem?_eq_none outside]
  cases program.module? declaration.module <;> rfl

theorem annotationType_inside {index : Nat} {name : String}
    (resolved : program.annotationType declaration index = .ok (some name)) :
    index < declaration.header.decorators.length := by
  by_contra outside
  rw [annotationType_outside (Nat.not_lt.mp outside)] at resolved
  cases resolved

theorem answerOf_eq_some {answer : Except ResolutionError (Option String)} {name : String} :
    answerOf answer = some name ↔ answer = .ok (some name) := by
  rcases answer with error | resolved
  · simp [answerOf]
  · simp [answerOf]

theorem isMarked_iff :
    isMarked program.host program.answers declaration = true ↔
      declaration.kind = .enum ∧ program.HasMarker declaration := by
  constructor
  · intro marked
    simp only [isMarked, isCandidate, host, Bool.and_eq_true, beq_iff_eq, List.any_eq_true] at marked
    obtain ⟨⟨kind, -⟩, index, -, marker⟩ := marked
    exact ⟨kind, index, answerOf_eq_some.mp marker⟩
  · rintro ⟨kind, index, marker⟩
    have inside := annotationType_inside marker
    have decorated : 0 < declaration.header.decorators.length := by omega
    simp only [isMarked, isCandidate, host, Bool.and_eq_true, beq_iff_eq, List.any_eq_true,
      List.mem_range]
    exact ⟨⟨kind, decide_eq_true decorated⟩, index, inside, answerOf_eq_some.mpr marker⟩

/-- A declaration with a type is of an enum class, and has the type of that class. -/
theorem answers_declared (declared : program.answers.declared declaration = some type) :
    ∃ loaded, program.class? declaration.module declaration.qualname = some loaded ∧
      (program.isEnumClass loaded []).1 = .ok true ∧ type = enumType loaded := by
  simp only [answers] at declared
  cases found : program.class? declaration.module declaration.qualname with
  | none =>
    rw [declaredType_none found] at declared
    cases declared
  | some loaded =>
    rw [declaredType_some found] at declared
    refine ⟨loaded, rfl, typeAnswer_eq_some ?_⟩
    revert declared
    rcases typeAnswer loaded (program.isEnumClass loaded []).1 with error | answer
    · rintro ⟨⟩
    · rintro rfl
      rfl

/-- The type of a class has a descriptor when its module has a name. -/
theorem enumType_descriptor {loaded : LoadedClass} (named : loaded.module.name ≠ "") :
    ∃ d, (enumType loaded).descriptor = .ok d := by
  refine ⟨_, Descriptor.make_ok ?_⟩
  have inside : (loaded.module.name.toList ++ ['.']).isPrefixOf loaded.fullName.toList = true := by
    rw [List.isPrefixOf_iff_prefix]
    refine ⟨loaded.qualname.toList, ?_⟩
    simp [LoadedClass.fullName]
  simp only [isInside, named, enumType, inside, ne_eq, not_false_eq_true, decide_true, Bool.and_self]

/-- A run over a program whose declarations are well read describes its marked enums. -/
theorem run_program (distinct : program.DistinctNames) (shallow : program.Shallow)
    (wellRead : program.WellRead) (justified : Justified program memo) :
    ∃ result, (run program.host freshRenderer .never program.declarations memo).1 = .ok result ∧
      Describes program.host program.answers program.declarations result := by
  refine run_describes (host_gives distinct shallow) ?_ wellRead.keys justified
  intro declaration member type declared
  obtain ⟨loaded, found, -, rfl⟩ := answers_declared declared
  obtain ⟨home, inProgram, inHome⟩ := List.mem_flatMap.mp member
  obtain ⟨-, sameModule, -⟩ := class?_isClass found
  refine enumType_descriptor ?_
  rw [sameModule, wellRead.own home inProgram declaration inHome]
  exact wellRead.named home inProgram

section

variable {result : Result} {loaded : LoadedClass}

/-- A descriptor with the name of a class comes from a marked declaration of it, and describes it. -/
theorem descriptor_origin (distinct : program.DistinctNames)
    (describes : Describes program.host program.answers program.declarations result)
    (isClass : program.IsClass loaded) {d : Descriptor} (member : d ∈ result.descriptors)
    (same : d.qualifiedName = loaded.fullName) :
    (∃ declaration ∈ program.declarations, declaration.module = loaded.module.name ∧
      declaration.qualname = loaded.qualname ∧ program.HasMarker declaration) ∧
      d.module = loaded.module.name ∧ d.members = (enumType loaded).constants := by
  obtain ⟨declaration, declared, marked, type, isType, ok⟩ := describes.origin d member
  obtain ⟨other, found, -, rfl⟩ := answers_declared isType
  obtain ⟨name, module, members⟩ := descriptor_ok ok
  obtain ⟨otherIsClass, sameModule, sameQualname⟩ := class?_isClass found
  obtain rfl := distinct.eq otherIsClass isClass (name.symm.trans same)
  exact ⟨⟨declaration, declared, sameModule.symm, sameQualname.symm, (isMarked_iff.mp marked).2⟩,
    module, members⟩

/-- A marked class that looks like an enum and is one has one descriptor. -/
theorem descriptors_of_marked (distinct : program.DistinctNames)
    (describes : Describes program.host program.answers program.declarations result)
    (isClass : program.IsClass loaded) (declared : loaded.declaration ∈ program.declarations)
    (own : loaded.declaration.module = loaded.module.name)
    (kind : loaded.declaration.kind = .enum) (marker : program.HasMarker loaded.declaration)
    (enum : (program.isEnumClass loaded []).1 = .ok true) :
    ∃ d, result.descriptors.filter (·.qualifiedName = loaded.fullName) = [d] ∧
      d.module = loaded.module.name ∧ d.members = (enumType loaded).constants := by
  have hasType : program.answers.declared loaded.declaration = some (enumType loaded) := by
    change answerOf (program.declaredType loaded.declaration.module loaded.qualname []).1 = _
    rw [own, declaredType_some isClass, enum]
    rfl
  obtain ⟨d, member, name⟩ :=
    describes.covers _ declared (isMarked_iff.mpr ⟨kind, marker⟩) _ hasType
  have same : d.qualifiedName = loaded.fullName := name
  refine ⟨d, ?_, (descriptor_origin distinct describes isClass member same).2⟩
  rw [← same]
  exact filter_name describes.names member

/-- A class that no declaration marks has no descriptor. -/
theorem descriptors_of_unmarked (distinct : program.DistinctNames) (wellRead : program.WellRead)
    (describes : Describes program.host program.answers program.declarations result)
    (isClass : program.IsClass loaded)
    (unmarked : ∀ declaration ∈ loaded.module.declarations,
      declaration.qualname = loaded.qualname → ¬ program.HasMarker declaration) :
    result.descriptors.filter (·.qualifiedName = loaded.fullName) = [] := by
  rw [List.filter_eq_nil_iff]
  intro d member same
  obtain ⟨⟨declaration, declared, module, qualname, marker⟩, -⟩ :=
    descriptor_origin distinct describes isClass member (of_decide_eq_true same)
  obtain ⟨home, inProgram, inHome⟩ := List.mem_flatMap.mp declared
  have sameHome : home = loaded.module := by
    have found := wellRead.found home inProgram
    rw [← wellRead.own home inProgram declaration inHome, module,
      (class?_eq_some.mp isClass).1] at found
    exact (Option.some.inj found).symm
  subst sameHome
  exact unmarked declaration inHome qualname marker

end

end EnumLookup.Program

namespace EnumLookup

open Declaration Generation Program

/-- Every marked enum is generated once, with the constants of the last class statement of its
name in order, and nothing is generated for a class that no class statement marks. A name that is
given up counts as one without an answer: this is about runs in which every search for a name
ends. -/
theorem runAfresh_complete [Text.Characters] {files : List SourceFile} {loaded : Loaded}
    (loads : load .standard .empty files = .ok loaded) (paths : (files.map (·.path)).Nodup)
    (named : ∀ file ∈ files, file.module ≠ "")
    (positions : ∀ home ∈ loaded.program.modules,
      (home.declarations.map (·.header.position)).Nodup)
    (distinct : loaded.program.DistinctNames) (shallow : loaded.program.Shallow) :
    ∃ result, runAfresh .never files = .ok result ∧ result.cancelled = false ∧
      (result.descriptors.map (·.qualifiedName)).Nodup ∧
      ∀ home ∈ loaded.program.modules, ∀ qualname declaration,
        home.class? qualname = some declaration →
        (∀ type, loaded.program.HasMarker declaration →
          (loaded.program.declaredType home.name qualname loaded.memo).1 = .ok (some type) →
          ∃ d, result.descriptors.filter (·.qualifiedName = home.name ++ "." ++ qualname) = [d] ∧
            d.module = home.name ∧
            d.members = ((members declaration.body).filter (·.isConstant)).map (·.name)) ∧
        ((∀ other ∈ home.declarations, other.qualname = qualname →
          ¬ loaded.program.HasMarker other) →
          result.descriptors.filter (·.qualifiedName = home.name ++ "." ++ qualname) = []) := by
  have wellRead := load_wellRead loads paths named positions
  obtain ⟨loading, -, rfl⟩ := load_eq_ofLoading loads
  have justified := ofLoading_justified distinct
  obtain ⟨result, ran, describes⟩ := run_program distinct shallow wellRead justified
  refine ⟨result, ?_, describes.finished, describes.names, ?_⟩
  · simp only [runAfresh, loads, ran]
    rfl
  intro home inProgram qualname declaration found
  have classFound : (ofLoading .standard loading).program.class? home.name qualname =
      some ⟨home, declaration⟩ := class?_eq_some.mpr ⟨wellRead.found home inProgram, found⟩
  obtain ⟨isClass, -, sameQualname⟩ := class?_isClass classFound
  obtain ⟨inHome, -⟩ := LoadedModule.class?_mem found
  have own := wellRead.own home inProgram declaration inHome
  subst sameQualname
  refine ⟨fun type marker hasType => ?_, descriptors_of_unmarked distinct wellRead describes isClass⟩
  rw [declaredType_recalls distinct _ _ justified (shallow.declaredType _ _),
    declaredType_some classFound] at hasType
  obtain ⟨enum, -⟩ := typeAnswer_eq_some hasType
  have itself : (ofLoading .standard loading).program.class? declaration.module
      declaration.qualname = some ⟨home, declaration⟩ := by
    rw [own]
    exact isClass
  have kind := settled_enum distinct inProgram inHome itself rfl enum
  have declared : declaration ∈ (ofLoading .standard loading).program.declarations :=
    List.mem_flatMap.mpr ⟨home, inProgram, inHome⟩
  have once := descriptors_of_marked distinct describes isClass declared own kind marker enum
  exact once

/-- An enum that is marked under another name, and whose base is found in another module. -/
def markedFiles : List SourceFile :=
  [⟨"p.py", "p", false, .ofString "from enum import Enum as E\n"⟩,
    ⟨"q.py", "q", false, .ofString ("from p import E\n" ++
      "from enum_generators import enum_extensions as m\n@m\nclass C(E): A = _b = 1\n")⟩]

theorem runAfresh_complete_renamed :
    ∃ loaded, load .standard .empty markedFiles = .ok loaded ∧
      (markedFiles.map (·.path)).Nodup ∧ (∀ file ∈ markedFiles, file.module ≠ "") ∧
      (∀ home ∈ loaded.program.modules, (home.declarations.map (·.header.position)).Nodup) ∧
      loaded.program.DistinctNames ∧ loaded.program.Shallow ∧
      ∃ result, runAfresh .never markedFiles = .ok result ∧
        ∃ d, result.descriptors.filter (·.qualifiedName = "q.C") = [d] ∧ d.module = "q" ∧
          d.members = ["A", "_b"] := by
  have checked : (load .standard .empty markedFiles).toOption.any (fun loaded =>
      ((∀ home ∈ loaded.program.modules, (home.declarations.map (·.header.position)).Nodup) ∧
        loaded.program.DistinctNames ∧ loaded.program.Shallow) ∧
      (loaded.program.class? "q" "C").any fun marked =>
        (loaded.program.annotationType marked.declaration 0).toOption.any
            (· = some Package.markerFullName) ∧
          (loaded.program.declaredType "q" "C" loaded.memo).1.toOption.any Option.isSome ∧
          (members marked.declaration.body).filter (·.isConstant) =
            [⟨"A", true⟩, ⟨"_b", true⟩]) = true := by
    decide +kernel
  obtain ⟨loaded, loads, holds⟩ := exists_ok_of_any checked
  obtain ⟨⟨positions, distinct, shallow⟩, marked⟩ := of_decide_eq_true holds
  have paths : (markedFiles.map (·.path)).Nodup := by decide
  have named : ∀ file ∈ markedFiles, file.module ≠ "" := by decide
  obtain ⟨result, ran, -, -, classes⟩ :=
    runAfresh_complete loads paths named positions distinct shallow
  refine ⟨loaded, loads, paths, named, positions, distinct, shallow, result, ran, ?_⟩
  obtain ⟨⟨home, declaration⟩, found, holds⟩ := (Option.any_eq_true _ _).mp marked
  obtain ⟨marks, typed, constants⟩ := of_decide_eq_true holds
  obtain ⟨resolved, resolved_ok, same⟩ := exists_ok_of_any marks
  obtain rfl := of_decide_eq_true same
  obtain ⟨answer, answer_ok, isType⟩ := exists_ok_of_any typed
  obtain ⟨type, rfl⟩ := Option.isSome_iff_exists.mp isType
  obtain ⟨inProgram, declared⟩ := class?_eq_some.mp found
  obtain ⟨homeMember, name⟩ := module?_mem inProgram
  rw [← name] at answer_ok
  obtain ⟨d, once, module, memberNames⟩ :=
    (classes home homeMember "C" declaration declared).1 type ⟨0, resolved_ok⟩ answer_ok
  rw [name] at once module
  rw [constants] at memberNames
  exact ⟨d, once, module, memberNames⟩

end EnumLookup
