import EnumLookup.Proofs.Discovery.Found
import EnumLookup.Proofs.Generation.Succession
import EnumLookup.Proofs.Program.Sources

/-!
What keys identify. A key has the path of a file, and a position in it, but not the module: it tells
class statements apart, and declarations only when no file is loaded as two modules. Such a file
lies below two roots, one of them within the other. Then one of its declarations stands for both,
and which one depends on the order in which they are reported.
-/
namespace EnumLookup

open Declaration Generation Text

namespace Generation

variable {ν σ : Type} {host : Host ν σ} {nodes others : List ν} {node : ν}

/-- Keys tell these nodes apart. -/
def KeysApart (host : Host ν σ) (nodes : List ν) : Prop :=
  ∀ a ∈ nodes, ∀ b ∈ nodes, host.key a = host.key b → a = b

theorem KeysApart.mono (apart : KeysApart host others) (subset : nodes ⊆ others) :
    KeysApart host nodes :=
  fun a inNodes b alsoIn => apart a (subset inNodes) b (subset alsoIn)

theorem KeysApart.mem_deduplicate (apart : KeysApart host nodes) :
    node ∈ deduplicate host nodes ↔ node ∈ nodes := by
  rw [deduplicate, List.mem_mergeSort]
  constructor
  · exact mem_of_mem_distinct
  · exact fun member => mem_distinct member fun other inNodes => apart other inNodes node member

/-- When keys tell nodes apart, it cannot be seen how often nodes are reported, nor in what order. -/
theorem KeysApart.deduplicate_eq (apart : KeysApart host nodes)
    (same : ∀ node, node ∈ nodes ↔ node ∈ others) :
    deduplicate host nodes = deduplicate host others := by
  have alsoApart : KeysApart host others :=
    apart.mono fun node member => (same node).mpr member
  have once (nodes : List ν) : (deduplicate host nodes).Nodup := by
    apply List.Nodup.of_map host.key
    exact (deduplicate_ordered host nodes).imp fun before => before.2
  have perm : (deduplicate host nodes).Perm (deduplicate host others) := by
    rw [List.perm_ext_iff_of_nodup (once nodes) (once others)]
    intro node
    rw [apart.mem_deduplicate, alsoApart.mem_deduplicate, same]
  have sorted (nodes : List ν) : (deduplicate host nodes).Pairwise fun a b =>
      (host.key a).le (host.key b) = true := List.pairwise_map.mp (deduplicate_sorted host nodes)
  refine perm.eq_of_pairwise (fun a b inNodes inOthers before after => ?_) (sorted nodes)
    (sorted others)
  exact apart a (apart.mem_deduplicate.mp inNodes) b
    ((same b).mpr (alsoApart.mem_deduplicate.mp inOthers)) (Key.le_antisymm before after)

end Generation

namespace Program

/-- No file that declares classes is loaded as two modules. -/
def ReadsOnce (program : Program) : Prop :=
  ∀ a ∈ program.declarations, ∀ b ∈ program.declarations,
    a.key.path = b.key.path → a.module = b.module

section

variable [Characters]
variable {store : Store} {roots : List Path} {exclude : List String} {files : List SourceFile}
  {limits : Limits} {cache : ParseCache} {loaded : Loaded} {a b : ClassDeclaration}

theorem origin_of_mem (loads : load limits cache files = .ok loaded)
    (member : a ∈ loaded.program.declarations) :
    ∃ home ∈ loaded.program.modules, a ∈ home.declarations ∧ a.module = home.name ∧
      ∃ file ∈ files, a.key.path = file.path ∧ a.module = file.module ∧
        home.IsReadFrom loaded.cache file := by
  obtain ⟨home, inModules, declared⟩ := List.mem_flatMap.mp member
  obtain ⟨file, inFiles, readFrom⟩ := load_readFrom loads home inModules
  obtain ⟨module, key⟩ := readFrom.isOf.declared a declared
  exact ⟨home, inModules, declared, module.trans readFrom.isOf.name.symm, file, inFiles,
    by rw [key], module, readFrom⟩

/-- In one module, keys tell declarations apart. -/
theorem keys_in_module (trees : cache.HoldsTrees) (loads : load limits cache files = .ok loaded) :
    ∀ home ∈ loaded.program.modules, (home.declarations.map (·.key)).Nodup := by
  intro home member
  obtain ⟨file, -, readFrom⟩ := load_readFrom loads home member
  exact readFrom.isOf.keys (load_isIndexed trees loads home member).positions

theorem eq_of_key (trees : cache.HoldsTrees) (loads : load limits cache files = .ok loaded)
    (inProgram : a ∈ loaded.program.declarations) (alsoIn : b ∈ loaded.program.declarations)
    (module : a.module = b.module) (key : a.key = b.key) : a = b := by
  obtain ⟨home, inModules, declared, name, -⟩ := origin_of_mem loads inProgram
  obtain ⟨other, alsoModule, otherDeclared, otherName, -⟩ := origin_of_mem loads alsoIn
  have same : home = other := by
    obtain ⟨-, -, -, names⟩ := load_read loads
    refine List.inj_on_of_nodup_map names inModules alsoModule ?_
    rw [← name, ← otherName, module]
  subst same
  exact List.inj_on_of_nodup_map (keys_in_module trees loads home inModules) declared
    otherDeclared key

section Found

variable (normal : ∀ root ∈ roots, root.IsNormal)
  (found : (Discovery.discover store roots exclude).1 = .ok files)
  (loads : load limits cache files = .ok loaded) (inProgram : a ∈ loaded.program.declarations)
  (alsoIn : b ∈ loaded.program.declarations)

include normal found loads inProgram alsoIn

/-- A file that is loaded as two modules declares in one what it declares in the other. -/
theorem exists_twin (path : a.key.path = b.key.path) :
    ∃ twin ∈ loaded.program.declarations, twin.module = b.module ∧ twin.key = a.key ∧
      twin.plain = a.plain.within b.module := by
  obtain ⟨home, -, declared, -, file, inFiles, filePath, -, readFrom⟩ :=
    origin_of_mem loads inProgram
  obtain ⟨other, alsoModule, otherDeclared, name, origin, alsoFile, originPath, -, otherFrom⟩ :=
    origin_of_mem loads alsoIn
  have paths : file.path = origin.path := by rw [← filePath, path, originPath]
  obtain ⟨texts, -⟩ := Discovery.discover_same_path normal found inFiles alsoFile paths
  have same := readFrom.same_declarations otherFrom paths texts
  have there : a.plain.within other.name ∈ other.declarations.map (·.plain) :=
    same ▸ List.mem_map_of_mem declared
  obtain ⟨twin, twinDeclared, plain⟩ := List.mem_map.mp there
  have module := congrArg ClassDeclaration.module plain
  have key := congrArg ClassDeclaration.key plain
  exact ⟨twin, List.mem_flatMap.mpr ⟨other, alsoModule, twinDeclared⟩, module.trans name.symm, key,
    name ▸ plain⟩

/-- Two declarations with one key are one class statement, in two modules perhaps. -/
theorem plain_of_key (trees : cache.HoldsTrees) (key : a.key = b.key) :
    b.plain = a.plain.within b.module := by
  obtain ⟨twin, twinIn, module, twinKey, plain⟩ :=
    exists_twin normal found loads inProgram alsoIn (congrArg Key.path key)
  rwa [eq_of_key trees loads twinIn alsoIn module (twinKey.trans key)] at plain

/-- A path belongs to one module, or two roots lie within each other. -/
theorem module_of_path (path : a.key.path = b.key.path) :
    a.module = b.module ∨ ∃ root ∈ roots, ∃ base ∈ roots, root.IsWithin base := by
  obtain ⟨-, -, -, -, file, inFiles, filePath, module, -⟩ := origin_of_mem loads inProgram
  obtain ⟨-, -, -, -, origin, alsoFile, originPath, otherModule, -⟩ := origin_of_mem loads alsoIn
  have paths : file.path = origin.path := by rw [← filePath, path, originPath]
  rw [module, otherModule]
  exact (Discovery.discover_same_path normal found inFiles alsoFile paths).2

end Found

theorem ReadsOnce.keys_nodup (once : loaded.program.ReadsOnce) (trees : cache.HoldsTrees)
    (loads : load limits cache files = .ok loaded) :
    (loaded.program.declarations.map (·.key)).Nodup := by
  obtain ⟨-, -, -, names⟩ := load_read loads
  rw [declarations, List.map_flatMap, List.nodup_flatMap]
  refine ⟨keys_in_module trees loads, (List.pairwise_map.mp names).imp_of_mem ?_⟩
  intro home other inModules alsoIn different key inHome inOther
  obtain ⟨a, declared, rfl⟩ := List.mem_map.mp inHome
  obtain ⟨b, otherDeclared, key⟩ := List.mem_map.mp inOther
  apply different
  rw [← load_own loads inModules declared, ← load_own loads alsoIn otherDeclared]
  exact once a (List.mem_flatMap.mpr ⟨home, inModules, declared⟩) b
    (List.mem_flatMap.mpr ⟨other, alsoIn, otherDeclared⟩) (congrArg Key.path key.symm)

end

/-- What the keys of a program, loaded from below these roots, identify. -/
structure Keyed (roots : List Path) (program : Program) : Prop where
  /-- Every key is that of one class statement. -/
  statement : ∀ a ∈ program.declarations, ∀ b ∈ program.declarations, a.key = b.key →
    a.header = b.header ∧ a.body = b.body
  /-- Every key is that of one declaration just when no file is loaded as two modules. -/
  distinct : (program.declarations.map (·.key)).Nodup ↔ program.ReadsOnce
  /-- No file is, as long as no root lies within another one. -/
  once : (∀ root ∈ roots, ∀ other ∈ roots, ¬ root.IsWithin other) → program.ReadsOnce
  /-- Then no target is lost to another one, and their order and repetition change nothing. -/
  unordered : program.ReadsOnce → ∀ targets others : List ClassDeclaration,
    targets ⊆ program.declarations → (∀ target, target ∈ targets ↔ target ∈ others) →
    (∀ target, target ∈ deduplicate program.host targets ↔ target ∈ targets) ∧
    ∀ cancellation, extract program.host cancellation targets =
      extract program.host cancellation others

/-- Below any roots, whatever is excluded, keys identify the class statements that are loaded. -/
theorem load_keyed [Characters] {store : Store} {texts exclude : List String}
    {files : List SourceFile} {limits : Limits} {cache : ParseCache} {loaded : Loaded}
    (found : (Discovery.discover store (texts.map Path.ofString) exclude).1 = .ok files)
    (trees : cache.HoldsTrees) (loads : load limits cache files = .ok loaded) :
    loaded.program.Keyed (texts.map Path.ofString) := by
  have normal : ∀ root ∈ texts.map Path.ofString, root.IsNormal := by
    intro root member
    obtain ⟨text, -, rfl⟩ := List.mem_map.mp member
    exact Path.ofString_normal text
  constructor
  · intro a inProgram b alsoIn key
    have same := plain_of_key normal found loads inProgram alsoIn trees key
    exact ⟨(congrArg ClassDeclaration.header same).symm, (congrArg ClassDeclaration.body same).symm⟩
  · refine ⟨fun different a inProgram b alsoIn path => ?_, fun once => once.keys_nodup trees loads⟩
    obtain ⟨twin, twinIn, module, key, -⟩ := exists_twin normal found loads inProgram alsoIn path
    rw [← module, List.inj_on_of_nodup_map different twinIn inProgram key]
  · intro apart a inProgram b alsoIn path
    rcases module_of_path normal found loads inProgram alsoIn path with same | within
    · exact same
    · obtain ⟨root, isRoot, other, alsoRoot, within⟩ := within
      exact absurd within (apart root isRoot other alsoRoot)
  · intro once targets others inProgram same
    have apart : KeysApart loaded.program.host targets :=
      KeysApart.mono (fun a member b alsoIn key => eq_of_key trees loads member alsoIn
        (once a member b alsoIn (congrArg Key.path key)) key) inProgram
    refine ⟨fun target => apart.mem_deduplicate, fun cancellation => ?_⟩
    rw [extract, extract, apart.deduplicate_eq same]

def sharedText : String := "from enum import Enum\nclass C(Enum): A = 1\n"

/-- A file two directories down, and a link to it in a third one. -/
def sharedStore : Store where
  entries :=
    [(["src"], .directory), (["src", "app"], .directory),
     (["src", "app", "m.py"], .file (utf8 sharedText)), (["lib"], .directory),
     (["lib", "m.py"], .link "../src/app/m.py")]

def IsShared [Characters] (texts : List String) (files : List SourceFile)
    (loaded : Loaded) : Prop :=
  (Discovery.discover sharedStore (texts.map Path.ofString) []).1 = .ok files ∧
    load .standard .empty files = .ok loaded

theorem exists_isShared [Characters] {texts : List String} {holds : Loaded → Prop}
    [DecidablePred holds]
    (checked : ((Discovery.discover sharedStore (texts.map Path.ofString) []).1.toOption.any
      fun files => (load .standard .empty files).toOption.any fun loaded => holds loaded) = true) :
    ∃ files loaded, IsShared texts files loaded ∧ holds loaded := by
  obtain ⟨files, found, checked⟩ := exists_ok_of_any checked
  obtain ⟨loaded, loads, holds⟩ := exists_ok_of_any checked
  exact ⟨files, loaded, ⟨found, loads⟩, of_decide_eq_true holds⟩

/-- Side by side, the roots give one text to two modules, whose declarations have two keys. -/
theorem load_keyed_beside : ∃ files loaded, IsShared ["src", "lib"] files loaded ∧
    ParseCache.empty.HoldsTrees ∧ loaded.program.declarations.map (·.module) = ["app.m", "m"] ∧
      (loaded.program.declarations.map (·.key)).Nodup := by
  have shared : ∃ files loaded, IsShared ["src", "lib"] files loaded ∧
      loaded.program.declarations.map (·.module) = ["app.m", "m"] :=
    exists_isShared (by decide +kernel)
  obtain ⟨files, loaded, ⟨found, loads⟩, modules⟩ := shared
  have keyed := load_keyed found ParseCache.empty_holdsTrees loads
  refine ⟨files, loaded, ⟨found, loads⟩, ParseCache.empty_holdsTrees, modules,
    keyed.distinct.mpr (keyed.once ?_)⟩
  decide

/-- With one root within the other, two declarations have one key, and the one that is reported
first is described. -/
theorem not_distinct_within : ∃ files loaded, IsShared ["src", "src/app"] files loaded ∧
    loaded.program.declarations.map (·.module) = ["app.m", "m"] ∧
    ¬(loaded.program.declarations.map (·.key)).Nodup ∧
    (deduplicate loaded.program.host loaded.program.declarations).map (·.module) = ["app.m"] ∧
    (extract loaded.program.host .never loaded.program.declarations (.start loaded.memo)).1.map
      (·.map (·.qualifiedName)) = .ok ["app.m.C"] ∧
    (extract loaded.program.host .never loaded.program.declarations.reverse
      (.start loaded.memo)).1.map (·.map (·.qualifiedName)) = .ok ["m.C"] :=
  exists_isShared (by decide +kernel)

end Program

end EnumLookup
