import EnumLookup.Proofs.Declaration.Collected
import EnumLookup.Proofs.Program.Transparency
import Mathlib.Data.List.Nodup
import Mathlib.Data.List.Forall2

/-!
The modules of a program against the files it was read from. Every module is that of one file, in
the order of the files, and no name is taken twice. Where paths and positions are not repeated,
keys tell all declarations apart.
-/
namespace EnumLookup

open Declaration Source Text List

/-- A module with the name of a file, and with declarations that stand in it. -/
structure LoadedModule.IsOf (home : LoadedModule) (file : SourceFile) : Prop where
  name : home.name = file.module
  declared : ∀ declaration ∈ home.declarations, declaration.module = file.module ∧
    declaration.key = ⟨file.path, declaration.header.position.line,
      declaration.header.position.column, declaration.qualname⟩

/-- Declarations of one file have different keys when they have different positions. -/
theorem LoadedModule.IsOf.keys {home : LoadedModule} {file : SourceFile} (isOf : home.IsOf file)
    (positions : (home.declarations.map (·.header.position)).Nodup) :
    (home.declarations.map (·.key)).Nodup := by
  have places : home.declarations.map (·.header.position) =
      (home.declarations.map (·.key)).map fun key => ⟨key.line, key.column⟩ := by
    rw [map_map]
    refine map_congr_left fun declaration member => ?_
    obtain ⟨-, key⟩ := isOf.declared declaration member
    simp only [Function.comp_apply, key]
  rw [places] at positions
  exact Nodup.of_map _ positions

namespace Program

variable {file : SourceFile} {files read : List SourceFile} {loading next : Loading}
  {home : LoadedModule} {declaration : ClassDeclaration}

theorem indexModule_isOf (file : SourceFile) (body : List Stmt) :
    (indexModule file body).IsOf file :=
  ⟨rfl, fun _ member => declarations_mem member⟩

theorem isOf_plain : home.plain.IsOf file ↔ home.IsOf file := by
  constructor
  · rintro ⟨name, declared⟩
    exact ⟨name, fun declaration member => declared declaration.plain (mem_map_of_mem member)⟩
  · rintro ⟨name, declared⟩
    refine ⟨name, fun declaration member => ?_⟩
    obtain ⟨settled, inHome, rfl⟩ := mem_map.mp member
    exact declared settled inHome

structure Loading.ReadAs (loading : Loading) (read : List SourceFile) : Prop where
  modules : Forall₂ LoadedModule.IsOf loading.modules read
  names : (loading.modules.map (·.name)).Nodup

theorem Loading.knows_iff {module : String} :
    loading.knows module = true ↔ module ∈ loading.modules.map (·.name) := by
  simp [Loading.knows]

theorem Loading.ReadAs.add [Characters] (before : loading.ReadAs read)
    (added : loading.add file = .ok next) :
    ∃ more, more.Sublist [file] ∧ next.ReadAs (read ++ more) := by
  have nothing (same : next.modules = loading.modules) :
      ∃ more, more.Sublist [file] ∧ next.ReadAs (read ++ more) := by
    refine ⟨[], nil_sublist _, ?_⟩
    rw [append_nil]
    exact ⟨same ▸ before.modules, same ▸ before.names⟩
  obtain ⟨-, modules, -⟩ | ⟨new, parsed, -, rfl⟩ := Loading.add_cases added
  · exact nothing modules
  · have modules := Loading.take_modules loading file parsed
    cases tree : parsed.tree.filter fun body => branchDepth body ≤ maxBranchDepth with
    | none =>
      rw [tree] at modules
      exact nothing (by simpa using modules)
    | some body =>
      rw [tree] at modules
      have modules : (loading.take file parsed).modules = loading.modules ++ [indexModule file body] :=
        modules
      refine ⟨[file], .refl _, ?_, ?_⟩
      · rw [modules]
        exact rel_append before.modules (.cons (indexModule_isOf file body) .nil)
      · rw [modules, map_append]
        refine before.names.append (nodup_singleton _) ?_
        rw [map_singleton, disjoint_singleton]
        rwa [← Bool.not_eq_true, Loading.knows_iff] at new

theorem Loading.ReadAs.addAll [Characters] (before : loading.ReadAs read)
    (added : loading.addAll files = .ok next) :
    ∃ more, more.Sublist files ∧ next.ReadAs (read ++ more) := by
  induction files generalizing loading read with
  | nil =>
    cases added
    exact ⟨[], .refl _, by rwa [append_nil]⟩
  | cons file rest ih =>
    unfold Loading.addAll at added
    cases first_ok : loading.add file with
    | error error =>
      rw [first_ok] at added
      cases added
    | ok first =>
      rw [first_ok] at added
      obtain ⟨one, inFile, first_read⟩ := before.add first_ok
      obtain ⟨others, inRest, last_read⟩ := ih first_read added
      refine ⟨one ++ others, inFile.append inRest, ?_⟩
      rwa [← append_assoc]

/-- The modules of a program are those of some of the files it was loaded from. -/
theorem load_read [Characters] {limits : Limits} {cache : ParseCache} {loaded : Loaded}
    (loads : load limits cache files = .ok loaded) :
    ∃ read, read.Sublist files ∧ Forall₂ LoadedModule.IsOf loaded.program.modules read ∧
      (loaded.program.modules.map (·.name)).Nodup := by
  obtain ⟨loading, added, rfl⟩ := load_eq_ofLoading loads
  have start : (⟨[], cache, []⟩ : Loading).ReadAs [] := ⟨.nil, nodup_nil⟩
  obtain ⟨read, inFiles, modules, names⟩ := start.addAll added
  have plain : (ofLoading limits loading).program.modules.map LoadedModule.plain =
      loading.modules.map LoadedModule.plain := settleModules_value ..
  refine ⟨read, inFiles, ?_, ?_⟩
  · have plainly : Forall₂ (fun home file => home.plain.IsOf file) loading.modules read :=
      modules.imp fun _ _ => isOf_plain.mpr
    rw [← forall₂_map_left_iff, ← plain, forall₂_map_left_iff] at plainly
    exact plainly.imp fun _ _ => isOf_plain.mp
  · have same := congrArg (List.map LoadedModule.name) plain
    simp only [map_map, Function.comp_def, LoadedModule.plain_name] at same
    rwa [same]

/-- What is known of the declarations of a program whose modules come from different files. -/
structure WellRead (program : Program) : Prop where
  named : ∀ home ∈ program.modules, home.name ≠ ""
  own : ∀ home ∈ program.modules, ∀ declaration ∈ home.declarations, declaration.module = home.name
  found : ∀ home ∈ program.modules, program.module? home.name = some home
  keys : (program.declarations.map (·.key)).Nodup

theorem module?_of_mem {program : Program} (names : (program.modules.map (·.name)).Nodup)
    (member : home ∈ program.modules) : program.module? home.name = some home := by
  cases found : program.module? home.name with
  | none =>
    have differs := find?_eq_none.mp found home member
    exact absurd (beq_self_eq_true home.name) differs
  | some other =>
    obtain ⟨inModules, same⟩ := module?_mem found
    rw [inj_on_of_nodup_map names inModules member same]

theorem isOf_of_mem {modules : List LoadedModule} (all : Forall₂ LoadedModule.IsOf modules read)
    (member : home ∈ modules) : ∃ file ∈ read, home.IsOf file := by
  induction all with
  | nil => cases member
  | cons first _ ih =>
    rcases mem_cons.mp member with rfl | inRest
    · exact ⟨_, mem_cons_self .., first⟩
    · obtain ⟨file, inFiles, same⟩ := ih inRest
      exact ⟨file, mem_cons_of_mem _ inFiles, same⟩

/-- Keys are not repeated when neither paths are, nor positions in one file. -/
theorem keys_nodup {modules : List LoadedModule} (all : Forall₂ LoadedModule.IsOf modules read)
    (paths : (read.map (·.path)).Nodup)
    (positions : ∀ home ∈ modules, (home.declarations.map (·.header.position)).Nodup) :
    ((modules.flatMap (·.declarations)).map (·.key)).Nodup := by
  induction all with
  | nil => exact nodup_nil
  | @cons home file rest others isOf all ih =>
    obtain ⟨new, paths⟩ := nodup_cons.mp paths
    rw [flatMap_cons, map_append]
    refine (isOf.keys (positions home (mem_cons_self ..))).append
      (ih paths fun other inRest => positions other (mem_cons_of_mem _ inRest)) ?_
    intro key inHome inRest
    obtain ⟨declaration, declared, rfl⟩ := mem_map.mp inHome
    obtain ⟨other, inOthers, same⟩ := mem_map.mp inRest
    obtain ⟨elsewhere, inModules, otherDeclared⟩ := mem_flatMap.mp inOthers
    obtain ⟨source, inSources, isOfSource⟩ := isOf_of_mem all inModules
    have path := congrArg Key.path same
    rw [(isOf.declared declaration declared).2,
      (isOfSource.declared other otherDeclared).2] at path
    exact new (mem_map.mpr ⟨source, inSources, path⟩)

theorem load_found [Characters] {limits : Limits} {cache : ParseCache} {loaded : Loaded}
    (loads : load limits cache files = .ok loaded) (member : home ∈ loaded.program.modules) :
    loaded.program.module? home.name = some home := by
  obtain ⟨read, -, -, names⟩ := load_read loads
  exact module?_of_mem names member

theorem load_own [Characters] {limits : Limits} {cache : ParseCache} {loaded : Loaded}
    (loads : load limits cache files = .ok loaded) (member : home ∈ loaded.program.modules)
    {declaration : ClassDeclaration} (declared : declaration ∈ home.declarations) :
    declaration.module = home.name := by
  obtain ⟨read, -, modules, -⟩ := load_read loads
  obtain ⟨file, -, isOf⟩ := isOf_of_mem modules member
  rw [isOf.name, (isOf.declared declaration declared).1]

theorem load_named [Characters] {limits : Limits} {cache : ParseCache} {loaded : Loaded}
    (loads : load limits cache files = .ok loaded) (named : ∀ file ∈ files, file.module ≠ "") :
    ∀ home ∈ loaded.program.modules, home.name ≠ "" := by
  obtain ⟨read, inFiles, modules, -⟩ := load_read loads
  intro home member
  obtain ⟨file, inRead, isOf⟩ := isOf_of_mem modules member
  rw [isOf.name]
  exact named file (inFiles.subset inRead)

theorem load_wellRead [Characters] {limits : Limits} {cache : ParseCache} {loaded : Loaded}
    (loads : load limits cache files = .ok loaded) (paths : (files.map (·.path)).Nodup)
    (named : ∀ file ∈ files, file.module ≠ "")
    (positions : ∀ home ∈ loaded.program.modules,
      (home.declarations.map (·.header.position)).Nodup) :
    loaded.program.WellRead := by
  obtain ⟨read, inFiles, modules, -⟩ := load_read loads
  exact ⟨load_named loads named, fun home member declaration => load_own loads member,
    fun home member => load_found loads member,
    keys_nodup modules (paths.sublist (inFiles.map _)) positions⟩

end Program

end EnumLookup
