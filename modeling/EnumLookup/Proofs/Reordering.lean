import EnumLookup.Proofs.Generation.Deduplication
import EnumLookup.Proofs.Program.Tables
import EnumLookup.Proofs.Runs

/-!
The order of files. Where neither paths nor modules are repeated, files in another order define the
same modules, and kinds that do not depend on what is remembered are settled alike. A run then marks
the same declarations and puts them in the order of their keys, so its result is the same.
-/
namespace EnumLookup

open Declaration Generation Source

variable {files others : List SourceFile}

namespace Generation

variable {ν σ α : Type} {host : Host ν σ} {answers : Answers ν} {nodes others : List ν}

theorem filterMap_eq_of_keys {f : ν → Option α}
    (sameKeys : nodes.map host.key = others.map host.key)
    (byKey : ∀ a ∈ nodes, ∀ b ∈ others, host.key a = host.key b → f a = f b) :
    nodes.filterMap f = others.filterMap f := by
  induction nodes generalizing others with
  | nil => rw [List.map_eq_nil_iff.mp sameKeys.symm]
  | cons first rest ih =>
    obtain ⟨other, more, rfl, key, keys⟩ := List.map_eq_cons_iff.mp sameKeys.symm
    have same := byKey first (List.mem_cons_self ..) other (List.mem_cons_self ..) key.symm
    have others := ih keys.symm fun a inRest b inMore =>
      byKey a (List.mem_cons_of_mem _ inRest) b (List.mem_cons_of_mem _ inMore)
    simp only [List.filterMap_cons, same, others]

/-- Nodes with one key may differ in their kinds and decorators, but if they have the same type, the
order of the nodes does not matter to the types of those that are marked. -/
theorem chosen_types_of_perm (host : Host ν σ) (perm : nodes.Perm others)
    (byKey : ∀ a ∈ nodes, ∀ b ∈ nodes, host.key a = host.key b →
      answers.declared a = answers.declared b) :
    (chosen host answers nodes).filterMap answers.declared =
      (chosen host answers others).filterMap answers.declared := by
  refine filterMap_eq_of_keys (deduplicate_keys_eq fun key => ?_) fun a inNodes b inOthers => ?_
  · exact ((perm.filter _).map host.key).mem_iff
  · exact byKey a (mem_of_mem_chosen inNodes).1 b (perm.mem_iff.mpr (mem_of_mem_chosen inOthers).1)

end Generation

namespace Program

variable {program : Program} {memo : Memo}

theorem shallow_plain : program.plain.Shallow ↔ program.Shallow := by
  have same (module qualname : String) :
      ranTooDeep (program.plain.declaredType module qualname []).1 =
        ranTooDeep (program.declaredType module qualname []).1 := by
    cases found : program.class? module qualname with
    | none =>
      have missing : program.plain.class? module qualname = none := by
        rw [class?_plain, found, Option.map_none]
      rw [declaredType_none found, declaredType_none missing]
    | some loaded =>
      have plain : program.plain.class? module qualname = some loaded.plain := by
        rw [class?_plain, found, Option.map_some]
      rw [declaredType_some found, declaredType_some plain, ranTooDeep_typeAnswer,
        ranTooDeep_typeAnswer, isEnumClass_plain]
  simp only [Shallow, classNames_plain, same]

/-! Settling as a map: what is remembered when a declaration is judged does not matter. -/

def settledDeclaration (program : Program) (declaration : ClassDeclaration) : ClassDeclaration :=
  (program.settle declaration []).value

def settledModule (program : Program) (home : LoadedModule) : LoadedModule :=
  { home with declarations := home.declarations.map program.settledDeclaration }

theorem settle_recalls (distinct : program.DistinctNames) (shallow : program.Shallow)
    (justified : Justified program memo) (declaration : ClassDeclaration) :
    (program.settle declaration memo).value = program.settledDeclaration declaration := by
  unfold settledDeclaration settle
  split
  · rfl
  · cases found : program.class? declaration.module declaration.qualname with
    | none => rfl
    | some loaded =>
      have isShallow := shallow.declaredType declaration.module declaration.qualname
      rw [declaredType_some found, ranTooDeep_typeAnswer] at isShallow
      have recalled := isEnumClass_recalls distinct (class?_isClass found).1 justified isShallow
      dsimp only
      revert recalled
      rcases program.isEnumClass loaded memo with ⟨known, memo'⟩
      rcases program.isEnumClass loaded [] with ⟨fresh, memo''⟩
      rintro rfl
      rcases known with error | answer
      · rfl
      · cases answer <;> rfl

theorem settleAll_recalls (distinct : program.DistinctNames) (shallow : program.Shallow)
    (justified : Justified program.plain memo) (declarations : List ClassDeclaration) :
    (program.settleAll declarations memo).value =
      declarations.map program.settledDeclaration := by
  induction declarations generalizing memo with
  | nil => rfl
  | cons declaration rest ih =>
    have others := ih
      (settle_justified ((distinctNames_plain program).mpr distinct) declaration justified)
    simp only [settleAll, List.map_cons, others,
      settle_recalls distinct shallow justified.of_plain declaration]

theorem settleModules_recalls (distinct : program.DistinctNames) (shallow : program.Shallow)
    (justified : Justified program.plain memo) (modules : List LoadedModule) :
    (program.settleModules modules memo).value = modules.map program.settledModule := by
  induction modules generalizing memo with
  | nil => rfl
  | cons home rest ih =>
    have others := ih
      (settleAll_justified ((distinctNames_plain program).mpr distinct) home.declarations justified)
    simp only [settleModules, List.map_cons, others, settledModule,
      settleAll_recalls distinct shallow justified]

def settled (program : Program) : Program :=
  ⟨program.limits, program.modules.map program.settledModule⟩

/-! The same modules in another order. -/

namespace Reorders

variable {other : Program} (reorders : program.Reorders other)
include reorders

theorem shallow (isShallow : program.Shallow) : other.Shallow := by
  simpa only [Shallow, reorders.mem_classNames, reorders.same.declaredType] using isShallow

theorem settled : program.settled.Reorders other.settled where
  limits := reorders.limits
  names := by
    simp only [Program.settled, List.map_map]
    exact reorders.names
  modules := by
    have declarations : program.settledDeclaration = other.settledDeclaration := by
      funext declaration
      simp only [settledDeclaration, reorders.same.settle]
    have modules : program.settledModule = other.settledModule := by
      funext home
      simp only [settledModule, declarations]
    simp only [Program.settled, modules]
    exact reorders.modules.map _

/-- Runs over the same modules in another order have the same outcome, if what is remembered is
justified and declarations with one key have one type. -/
theorem run (distinct : program.DistinctNames) (isShallow : program.Shallow)
    (byKey : ∀ a ∈ program.declarations, ∀ b ∈ program.declarations, a.key = b.key →
      program.answers.declared a = program.answers.declared b)
    {otherMemo : Memo} (justified : Justified program memo)
    (otherJustified : Justified other otherMemo) :
    (Generation.run other.host freshRenderer .never other.declarations otherMemo).1 =
      (Generation.run program.host freshRenderer .never program.declarations memo).1 := by
  have answers : other.answers = program.answers := by
    simp only [Program.answers, reorders.same.annotationType, reorders.same.declaredType]
  have kept (declarations : List ClassDeclaration) :
      Generation.distinct other.host declarations =
        Generation.distinct program.host declarations := by
    induction declarations with
    | nil => rfl
    | cons first rest ih =>
      simp only [Generation.distinct, ih]
      rfl
  have sameHost (declarations : List ClassDeclaration) :
      chosen other.host program.answers declarations =
        chosen program.host program.answers declarations :=
    congrArg (List.mergeSort · _) (kept _)
  have types := chosen_types_of_perm program.host reorders.declarations byKey
  rw [run_never (host_gives distinct isShallow) _ justified,
    run_never (host_gives (reorders.distinctNames distinct) (reorders.shallow isShallow)) _
      otherJustified, answers, sameHost, types]

end Reorders

/-! Files with different modules. None is passed over, and each defines a module if it can. -/

variable [Text.Characters]
variable {file : SourceFile} {modules : List LoadedModule} {loading next : Loading}

def modulesIn (files : List SourceFile) : List LoadedModule :=
  files.filterMap fun file => file.body?.map (indexModule file)

theorem modulesIn_append (files others : List SourceFile) :
    modulesIn (files ++ others) = modulesIn files ++ modulesIn others :=
  List.filterMap_append ..

theorem name_of_modulesIn {home : LoadedModule} (member : home ∈ modulesIn files) :
    ∃ file ∈ files, home.name = file.module := by
  obtain ⟨file, inFiles, defined⟩ := List.mem_filterMap.mp member
  obtain ⟨body, -, rfl⟩ := Option.map_eq_some_iff.mp defined
  exact ⟨file, inFiles, rfl⟩

def Apart (modules : List LoadedModule) (files : List SourceFile) : Prop :=
  ∀ home ∈ modules, ∀ file ∈ files, home.name ≠ file.module

theorem withFile_of_new (new : ∀ home ∈ modules, home.name ≠ file.module) :
    withFile modules file = modules ++ modulesIn [file] := by
  have free : (modules.any fun home => home.name == file.module) = false := by
    simpa using new
  simp only [withFile, free, modulesIn, Bool.false_eq_true, if_false, List.filterMap_cons,
    List.filterMap_nil]
  cases file.body? <;> rfl

theorem Apart.withFile {rest : List SourceFile} (apart : Apart modules (file :: rest))
    (different : ((file :: rest).map (·.module)).Nodup) :
    Apart (withFile modules file) rest := by
  obtain ⟨new, -⟩ := List.nodup_cons.mp different
  rw [withFile_of_new fun home member => apart home member file (List.mem_cons_self ..)]
  intro home member other inRest
  rcases List.mem_append.mp member with before | own
  · exact apart home before other (List.mem_cons_of_mem _ inRest)
  · obtain ⟨origin, same, name⟩ := name_of_modulesIn own
    rw [name, List.mem_singleton.mp same]
    exact fun again => new (List.mem_map.mpr ⟨other, inRest, again.symm⟩)

theorem foldl_withFile (different : (files.map (·.module)).Nodup) (apart : Apart modules files) :
    files.foldl withFile modules = modules ++ modulesIn files := by
  induction files generalizing modules with
  | nil => exact (List.append_nil modules).symm
  | cons file rest ih =>
    rw [List.foldl_cons, ih (List.nodup_cons.mp different).2 (apart.withFile different),
      withFile_of_new fun home member => apart home member file (List.mem_cons_self ..),
      List.append_assoc, ← modulesIn_append, List.singleton_append]

theorem modulesOf_eq (different : (files.map (·.module)).Nodup) :
    modulesOf files = modulesIn files :=
  foldl_withFile different fun _ member => nomatch member

/-- A file whose module is not taken is read, so its text has a UTF-8 form. -/
theorem Loading.add_encodable (new : ∀ home ∈ loading.modules, home.name ≠ file.module)
    (added : loading.add file = .ok next) : file.text.toString?.isSome := by
  have free : loading.knows file.module = false := by
    simpa [knows] using new
  by_contra surrogates
  have error : ∃ error, file.text.encodable = .error error := by
    rw [Text.SourceText.encodable, Option.not_isSome_iff_eq_none.mp surrogates]
    exact ⟨_, rfl⟩
  obtain ⟨error, denied⟩ := error
  simp [add, free, ParseCache.parse, denied, Except.map] at added

theorem Loading.addAll_encodable {texts : List String} (faithful : loading.cache.Faithful texts)
    (separated : Separated texts) (seen : ∀ text ∈ textsOf files, text ∈ texts)
    (different : (files.map (·.module)).Nodup) (apart : Apart loading.modules files)
    (added : loading.addAll files = .ok next) : AllEncodable files := by
  induction files generalizing loading with
  | nil => exact fun _ member => nomatch member
  | cons file rest ih =>
    unfold addAll at added
    cases first_ok : loading.add file with
    | error error =>
      rw [first_ok] at added
      cases added
    | ok first =>
      rw [first_ok] at added
      have encodable := add_encodable
        (fun home member => apart home member file (List.mem_cons_self ..)) first_ok
      obtain ⟨text, known⟩ := Option.isSome_iff_exists.mp encodable
      obtain ⟨same, same_ok, modules, first_faithful⟩ := add_ok faithful separated known
        (seen text (List.mem_filterMap.mpr ⟨file, List.mem_cons_self .., known⟩))
      obtain rfl := Except.ok.inj (first_ok.symm.trans same_ok)
      have others := ih first_faithful
        (fun text member => seen text (List.Sublist.subset
          ((List.sublist_cons_self file rest).filterMap _) member))
        (List.nodup_cons.mp different).2 (modules ▸ apart.withFile different) added
      exact List.forall_mem_cons.mpr ⟨encodable, others⟩

theorem modulesIn_names (files : List SourceFile) :
    ((modulesIn files).map (·.name)).Sublist (files.map (·.module)) := by
  induction files with
  | nil => exact .slnil
  | cons file rest ih =>
    rw [modulesIn, List.filterMap_cons]
    cases file.body? with
    | none => exact ih.cons _
    | some body => exact ih.cons_cons _

/-- The program that files with different modules define, before its kinds are settled. -/
def indexed (limits : Limits) (files : List SourceFile) : Program := ⟨limits, modulesIn files⟩

theorem indexed_reorders {others : List SourceFile} (limits : Limits) (perm : files.Perm others)
    (different : (files.map (·.module)).Nodup) :
    (indexed limits files).Reorders (indexed limits others) where
  limits := rfl
  names := different.sublist (modulesIn_names files)
  modules := perm.filterMap _

variable {limits : Limits} {loaded : Loaded}

/-- Loading makes of files with different modules the program that they define, with its kinds
settled. -/
theorem load_indexed (limits : Limits) (different : (files.map (·.module)).Nodup)
    (separated : Separated (textsOf files)) (encodable : AllEncodable files) :
    ∃ loaded, load limits .empty files = .ok loaded ∧
      loaded.program.plain = (indexed limits files).plain ∧
      ((indexed limits files).DistinctNames → (indexed limits files).Shallow →
        loaded.program = (indexed limits files).settled) := by
  obtain ⟨loaded, loads, program, -⟩ := load_ok limits (ParseCache.empty_faithful _) separated
    encodable fun _ member => member
  rw [settledOf, modulesOf_eq different] at program
  refine ⟨loaded, loads, ?_, fun distinct shallow => ?_⟩
  · rw [program]
    simp only [plain, indexed, settleModules_value]
  · rw [program]
    exact congrArg (Program.mk limits) (settleModules_recalls distinct shallow .nil _)

theorem load_justified (loads : load limits .empty files = .ok loaded)
    (distinct : loaded.program.DistinctNames) : Justified loaded.program loaded.memo := by
  obtain ⟨loading, -, rfl⟩ := load_eq_ofLoading loads
  exact ofLoading_justified distinct

/-- Where paths are not repeated, declarations with one key have one type. -/
theorem load_byKey (loads : load limits .empty files = .ok loaded)
    (paths : (files.map (·.path)).Nodup) :
    ∀ a ∈ loaded.program.declarations, ∀ b ∈ loaded.program.declarations, a.key = b.key →
      loaded.program.answers.declared a = loaded.program.answers.declared b := by
  obtain ⟨read, inFiles, modules, -⟩ := load_read loads
  intro a inA b inB same
  obtain ⟨home, homeMember, inHome⟩ := List.mem_flatMap.mp inA
  obtain ⟨other, otherMember, inOther⟩ := List.mem_flatMap.mp inB
  obtain ⟨file, inRead, isOf⟩ := isOf_of_mem modules homeMember
  obtain ⟨source, sourceRead, isOfSource⟩ := isOf_of_mem modules otherMember
  obtain ⟨module, key⟩ := isOf.declared a inHome
  obtain ⟨otherModule, otherKey⟩ := isOfSource.declared b inOther
  rw [key, otherKey] at same
  obtain ⟨path, -, -, qualname⟩ := Key.mk.inj same
  obtain rfl := List.inj_on_of_nodup_map (paths.sublist (inFiles.map _)) inRead sourceRead path
  simp only [answers, module, otherModule, qualname]

end Program

open Program

/-- The order of files does not matter. Where neither paths nor modules are repeated, classes have
distinct dotted names, and no chain of bases is too long, a run over the files in another order has
the same outcome, down to the texts of the units; it has a result if the modules are named. A
name that is given up counts as one without an answer: this is about runs in which every search for
a name ends. -/
theorem runAfresh_reordered [Text.Characters] {loaded : Loaded} (perm : files.Perm others)
    (paths : (files.map (·.path)).Nodup) (modules : (files.map (·.module)).Nodup)
    (separated : Separated (textsOf files)) (loads : load .standard .empty files = .ok loaded)
    (distinct : loaded.program.DistinctNames) (shallow : loaded.program.Shallow) :
    runAfresh .never others = runAfresh .never files ∧
      ((∀ file ∈ files, file.module ≠ "") → ∃ result, runAfresh .never files = .ok result) := by
  have encodable : AllEncodable files := by
    obtain ⟨loading, added, -⟩ := load_eq_ofLoading loads
    exact Loading.addAll_encodable (ParseCache.empty_faithful _) separated (fun _ member => member)
      modules (fun _ member => by cases member) added
  refine ⟨?_, fun named => runAfresh_succeeds encodable separated named .never⟩
  obtain ⟨same, sameLoads, plain, settled⟩ := load_indexed .standard modules separated encodable
  obtain rfl := Except.ok.inj (loads.symm.trans sameLoads)
  have indexedDistinct : (indexed .standard files).DistinctNames := by
    rwa [← distinctNames_plain, ← plain, distinctNames_plain]
  have indexedShallow : (indexed .standard files).Shallow := by
    rwa [← shallow_plain, ← plain, shallow_plain]
  have reorders := indexed_reorders .standard perm modules
  have otherTexts : ∀ text ∈ textsOf others, text ∈ textsOf files :=
    fun text member => (perm.filterMap _).mem_iff.mpr member
  obtain ⟨other, otherLoads, -, otherSettled⟩ := load_indexed .standard
    ((perm.map _).nodup_iff.mp modules)
    (fun a inA b inB => separated a (otherTexts a inA) b (otherTexts b inB))
    (fun file member => encodable file (perm.mem_iff.mpr member))
  have whole : loaded.program.Reorders other.program := by
    rw [settled indexedDistinct indexedShallow, otherSettled
      (reorders.distinctNames indexedDistinct) (reorders.shallow indexedShallow)]
    exact reorders.settled
  have ran := whole.run distinct shallow (load_byKey loads paths) (load_justified loads distinct)
    (load_justified otherLoads (whole.distinctNames distinct))
  simp only [runAfresh, loads, otherLoads, ran]

/-- Marked enums of two modules that need each other, with two classes that inherit in a circle. -/
def entangledFiles : List SourceFile :=
  [⟨"a.py", "a", false, .ofString ("from b import D\n" ++
      "from enum_generators import enum_extensions\n@enum_extensions\nclass C(D): A = 1\nclass X(Y): 0\nclass Y(X): 0\n")⟩,
    ⟨"b.py", "b", false, .ofString ("from enum import Enum as E\n" ++
      "from a import enum_extensions as m\n@m\nclass D(E): B = 1\n")⟩]

theorem runAfresh_entangled :
    entangledFiles.Perm entangledFiles.reverse ∧ (entangledFiles.map (·.path)).Nodup ∧
      (entangledFiles.map (·.module)).Nodup ∧ Separated (textsOf entangledFiles) ∧
      ∃ loaded, load .standard .empty entangledFiles = .ok loaded ∧
        loaded.program.DistinctNames ∧ loaded.program.Shallow ∧
        ∃ result, runAfresh .never entangledFiles = .ok result ∧
          runAfresh .never entangledFiles.reverse = .ok result := by
  have perm : entangledFiles.Perm entangledFiles.reverse := (List.reverse_perm _).symm
  have paths : (entangledFiles.map (·.path)).Nodup := by decide
  have modules : (entangledFiles.map (·.module)).Nodup := by decide
  have separated : Separated (textsOf entangledFiles) := by decide +kernel
  have checked : (load .standard .empty entangledFiles).toOption.any (fun loaded =>
      loaded.program.DistinctNames ∧ loaded.program.Shallow) = true := by
    decide +kernel
  obtain ⟨loaded, loads, holds⟩ := exists_ok_of_any checked
  obtain ⟨distinct, shallow⟩ := of_decide_eq_true holds
  obtain ⟨same, succeeds⟩ :=
    runAfresh_reordered perm paths modules separated loads distinct shallow
  obtain ⟨result, ran⟩ := succeeds (by decide)
  exact ⟨perm, paths, modules, separated, loaded, loads, distinct, shallow, result, ran,
    same.trans ran⟩

end EnumLookup
