import EnumLookup.Proofs.Completeness
import EnumLookup.Proofs.Generation.Origins

/-!
Which class statements are generated. The marker is looked for on each class statement, but the
members are those of the last one of its name. So every descriptor is that of a class with a marked
statement; the statement it describes is the marked one only if a marked name is not taken by a
statement without the marker.
-/
namespace EnumLookup

open Declaration Generation Program

/-- The descriptor is that of a class of the module: of the last class statement of its name, whose
constants it lists. -/
structure Descriptor.IsOf (d : Descriptor) (home : LoadedModule) (last : ClassDeclaration) :
    Prop where
  module : d.module = home.name
  name : d.qualifiedName = home.name ++ "." ++ last.qualname
  counts : home.class? last.qualname = some last
  constants : d.members = ((Declaration.members last.body).filter (·.isConstant)).map (·.name)

namespace Program

/-- A class statement that takes the name of a marked one is marked as well. -/
def KeepsMarkers (program : Program) : Prop :=
  ∀ home ∈ program.modules, ∀ declaration ∈ home.declarations, program.HasMarker declaration →
    ∀ last ∈ home.class? declaration.qualname, program.HasMarker last

variable {program : Program} {limits : Limits} {cache : ParseCache} {files : List SourceFile}
  {loaded : Loaded} {declaration last : ClassDeclaration} {home : LoadedModule}

theorem hasMarker_iff :
    program.HasMarker declaration ↔ ∃ index ∈ List.range declaration.header.decorators.length,
      answerOf (program.annotationType declaration index) = some Package.markerFullName := by
  constructor
  · rintro ⟨index, marker⟩
    exact ⟨index, List.mem_range.mpr (annotationType_inside marker), answerOf_eq_some.mpr marker⟩
  · rintro ⟨index, -, marker⟩
    exact ⟨index, answerOf_eq_some.mp marker⟩

instance : Decidable (program.HasMarker declaration) := decidable_of_iff _ hasMarker_iff.symm

instance (program : Program) : Decidable program.KeepsMarkers :=
  inferInstanceAs (Decidable (∀ home ∈ program.modules, ∀ declaration ∈ home.declarations,
    program.HasMarker declaration → ∀ last ∈ home.class? declaration.qualname,
      program.HasMarker last))

/-- A descriptor that the host makes of a declaration is that of its class. -/
theorem isOf_of_describes {d : Descriptor} (describes : program.host.Describes declaration d)
    (own : program.module? declaration.module = some home) :
    ∃ last ∈ home.declarations, last.qualname = declaration.qualname ∧ d.IsOf home last := by
  obtain ⟨memo, type, answered, made⟩ := describes
  have typed : (program.declaredType declaration.module declaration.qualname memo).1 =
      .ok (some type) := answered
  cases found : program.class? declaration.module declaration.qualname with
  | none =>
    rw [declaredType_none found] at typed
    cases typed
  | some loaded =>
    rw [declaredType_some found] at typed
    obtain ⟨-, rfl⟩ := typeAnswer_eq_some typed
    obtain ⟨inProgram, isLast⟩ := class?_eq_some.mp found
    obtain rfl : loaded.module = home := Option.some.inj (inProgram.symm.trans own)
    obtain ⟨inHome, qualname⟩ := LoadedModule.class?_mem isLast
    obtain ⟨name, module, members⟩ := descriptor_ok made
    exact ⟨loaded.declaration, inHome, qualname, module, name, qualname ▸ isLast, members⟩

/-- Every descriptor is that of a class one of whose statements is marked. -/
theorem run_marked_origin [Text.Characters] (loads : load limits cache files = .ok loaded)
    {cancellation : Cancellation} {memo : Memo} {result : Result}
    (ran : (run loaded.program.host freshRenderer cancellation loaded.program.declarations memo).1 =
      .ok result) {d : Descriptor} (member : d ∈ result.descriptors) :
    ∃ home ∈ loaded.program.modules, ∃ last ∈ home.declarations, d.IsOf home last ∧
      ∃ declaration ∈ home.declarations, declaration.qualname = last.qualname ∧
        declaration.kind = .enum ∧ loaded.program.HasMarker declaration := by
  obtain ⟨declaration, declared, kind, ⟨index, _, marker⟩, describes⟩ := run_origin ran member
  obtain ⟨home, inProgram, inHome⟩ := List.mem_flatMap.mp declared
  have own : loaded.program.module? declaration.module = some home := by
    rw [load_own loads inProgram inHome, load_found loads inProgram]
  obtain ⟨last, lastInHome, qualname, isOf⟩ := isOf_of_describes describes own
  exact ⟨home, inProgram, last, lastInHome, isOf, declaration, inHome, qualname.symm, kind,
    index, marker⟩

/-- An enum one of whose statements is marked is described, whether or not the statement that is
described is the marked one. -/
theorem marked_described [Text.Characters] (loads : load limits cache files = .ok loaded)
    (paths : (files.map (·.path)).Nodup) (named : ∀ file ∈ files, file.module ≠ "")
    (positions : ∀ home ∈ loaded.program.modules,
      (home.declarations.map (·.header.position)).Nodup)
    (distinct : loaded.program.DistinctNames) (shallow : loaded.program.Shallow)
    {found : LoadedClass} (isClass : loaded.program.IsClass found)
    (enum : (loaded.program.isEnumClass found []).1 = .ok true)
    (declared : declaration ∈ found.module.declarations)
    (qualname : declaration.qualname = found.qualname) (kind : declaration.kind = .enum)
    (marker : loaded.program.HasMarker declaration) :
    ∃ result, (run loaded.program.host freshRenderer .never loaded.program.declarations
        loaded.memo).1 = .ok result ∧
      ∃ d ∈ result.descriptors, d.IsOf found.module found.declaration := by
  have wellRead := load_wellRead loads paths named positions
  have justified : Justified loaded.program loaded.memo := by
    obtain ⟨loading, -, rfl⟩ := load_eq_ofLoading loads
    exact ofLoading_justified distinct
  obtain ⟨result, ran, describes⟩ := run_program distinct shallow wellRead justified
  obtain ⟨inProgram, counts⟩ := class?_eq_some.mp isClass
  have inModules := (module?_mem inProgram).1
  have isType : loaded.program.answers.declared declaration = some (enumType found) := by
    have itself : loaded.program.class? declaration.module declaration.qualname = some found := by
      rw [load_own loads inModules declared, qualname]
      exact isClass
    simp only [answers, declaredType_some itself, enum]
    rfl
  have inDeclarations := List.mem_flatMap.mpr ⟨found.module, inModules, declared⟩
  obtain ⟨d, member, name⟩ := describes.covers declaration inDeclarations
    (isMarked_iff.mpr ⟨kind, marker⟩) _ isType
  obtain ⟨-, module, constants⟩ := descriptor_origin distinct describes isClass member name
  exact ⟨result, ran, d, member, module, name, counts, constants⟩

/-- Every descriptor is that of a class one of whose statements is marked. Where a marked name is
never taken by a statement without the marker, the class statement that is described carries the
marker itself. -/
theorem run_describes_marked [Text.Characters] (loads : load limits cache files = .ok loaded)
    (memo : Memo) {result : Result}
    (ran : (run loaded.program.host freshRenderer .never loaded.program.declarations memo).1 =
      .ok result) :
    ∀ d ∈ result.descriptors, ∃ home ∈ loaded.program.modules, ∃ last ∈ home.declarations,
      d.IsOf home last ∧
      (∃ declaration ∈ home.declarations, declaration.qualname = last.qualname ∧
        declaration.kind = .enum ∧ loaded.program.HasMarker declaration) ∧
      (loaded.program.KeepsMarkers → loaded.program.HasMarker last) := by
  intro d member
  obtain ⟨home, inProgram, last, inHome, isOf, declaration, declared, qualname, kind, marker⟩ :=
    run_marked_origin loads ran member
  refine ⟨home, inProgram, last, inHome, isOf, ⟨declaration, declared, qualname, kind, marker⟩, ?_⟩
  intro keeps
  have isLast : last ∈ home.class? declaration.qualname := by
    rw [qualname, isOf.counts]
    rfl
  exact keeps home inProgram declaration declared marker last isLast

def enumFiles (text : String) : List SourceFile :=
  [⟨"m.py", "m", false, .ofString ("from enum import Enum\n" ++
    "from enum_generators import enum_extensions\n" ++ text)⟩]

def describable (program : Program) (found : LoadedClass) : Bool :=
  (∀ home ∈ program.modules, (home.declarations.map (·.header.position)).Nodup) ∧
    program.DistinctNames ∧ program.Shallow ∧
    (program.isEnumClass found []).1.toOption = some true ∧
    ∃ declaration ∈ found.module.declarations, declaration.qualname = found.qualname ∧
      declaration.kind = .enum ∧ program.HasMarker declaration

theorem enumFiles_described [Text.Characters] {text module qualname : String} {found : LoadedClass}
    (loads : load .standard .empty (enumFiles text) = .ok loaded)
    (isClass : loaded.program.class? module qualname = some found)
    (checked : describable loaded.program found = true) :
    ∃ result, (run loaded.program.host freshRenderer .never loaded.program.declarations
        loaded.memo).1 = .ok result ∧
      ∃ d ∈ result.descriptors, d.IsOf found.module found.declaration := by
  obtain ⟨positions, distinct, shallow, enum, declaration, declared, qualname, kind, marker⟩ :=
    of_decide_eq_true checked
  have answer : (loaded.program.isEnumClass found []).1 = .ok true := by
    revert enum
    rcases (loaded.program.isEnumClass found []).1 with error | answer
    · rintro ⟨⟩
    · rintro ⟨⟩
      rfl
  exact marked_described loads (by simp [enumFiles]) (by simp [enumFiles]) positions distinct
    shallow (class?_isClass isClass).1 answer declared qualname kind marker

def branchesText : String :=
  "try:\n @enum_extensions\n class C(Enum): A = 1\n" ++
    "except:\n @enum_extensions\n class C(Enum): B = 1\n"

theorem run_describes_marked_branches :
    ∃ loaded result, load .standard .empty (enumFiles branchesText) = .ok loaded ∧
      loaded.program.KeepsMarkers ∧
      (run loaded.program.host freshRenderer .never loaded.program.declarations loaded.memo).1 =
        .ok result ∧
      ∃ d ∈ result.descriptors, ∃ home last, d.IsOf home last ∧
        loaded.program.HasMarker last := by
  have checked : (load .standard .empty (enumFiles branchesText)).toOption.any (fun loaded =>
      loaded.program.KeepsMarkers ∧
        (loaded.program.class? "m" "C").any (describable loaded.program)) = true := by
    decide +kernel
  obtain ⟨loaded, loads, holds⟩ := exists_ok_of_any checked
  obtain ⟨keeps, marked⟩ := of_decide_eq_true holds
  obtain ⟨found, isClass, sound⟩ := (Option.any_eq_true _ _).mp marked
  obtain ⟨result, ran, d, member, -⟩ := enumFiles_described loads isClass sound
  obtain ⟨home, -, last, -, isOf, -, marker⟩ :=
    run_describes_marked loads loaded.memo ran d member
  exact ⟨loaded, result, loads, keeps, ran, d, member, home, last, isOf, marker keeps⟩

def reboundText : String := "@enum_extensions\nclass C(Enum): A = 1\nclass C(Enum): B = 2\n"

theorem not_marked_rebound :
    ∃ loaded result, load .standard .empty (enumFiles reboundText) = .ok loaded ∧
      (run loaded.program.host freshRenderer .never loaded.program.declarations loaded.memo).1 =
        .ok result ∧
      ∃ d ∈ result.descriptors, ∃ home last, d.IsOf home last ∧ d.members = ["B"] ∧
        ¬ loaded.program.HasMarker last := by
  have checked : (load .standard .empty (enumFiles reboundText)).toOption.any (fun loaded =>
      (loaded.program.class? "m" "C").any fun found =>
        describable loaded.program found ∧ ¬ loaded.program.HasMarker found.declaration ∧
          (members found.declaration.body).filter (·.isConstant) = [⟨"B", true⟩]) = true := by
    decide +kernel
  obtain ⟨loaded, loads, holds⟩ := exists_ok_of_any checked
  obtain ⟨found, isClass, sound⟩ := (Option.any_eq_true _ _).mp holds
  obtain ⟨sound, unmarked, constants⟩ := of_decide_eq_true sound
  obtain ⟨result, ran, d, member, isOf⟩ := enumFiles_described loads isClass sound
  refine ⟨loaded, result, loads, ran, d, member, found.module, found.declaration, isOf, ?_,
    unmarked⟩
  rw [isOf.constants, constants]
  rfl

end Program

end EnumLookup
