import EnumLookup.Proofs.Discovery.Collisions
import EnumLookup.Proofs.Package.Rescanning
import EnumLookup.Proofs.Program.Sources
import EnumLookup.Proofs.Skipping
import EnumLookup.Proofs.Source.Branching

/-!
Packages and the modules beside them. A module comes from the first of its files that can be
indexed, and of the files below one root the package is the first. So a package is loaded as imports
would load it, unless its branches are nested too deeply: then the module beside it takes its name.
-/
namespace EnumLookup

open Declaration Source Text

variable {files : List SourceFile} {file : SourceFile} {name : String}

def SourceFile.definition? [Characters] (name : String) (file : SourceFile) : Option LoadedModule :=
  if file.module = name then file.body?.map (Program.indexModule file) else none

theorem SourceFile.definition?_other [Characters] (other : file.module ≠ name) :
    file.definition? name = none :=
  if_neg other

theorem SourceFile.definition?_own [Characters] {body : List Stmt}
    (indexed : file.body? = some body) :
    file.definition? file.module = some (Program.indexModule file body) := by
  rw [definition?, if_pos rfl, indexed, Option.map_some]

namespace Program

variable [Characters]
variable {loading next : Loading} {texts : List String} {limits : Limits} {cache : ParseCache}
  {loaded : Loaded}

/-- A module is looked up among those that were there, then in the file. -/
theorem find?_withFile (modules : List LoadedModule) (file : SourceFile) (name : String) :
    (withFile modules file).find? (·.name == name) =
      (modules.find? (·.name == name)).or (file.definition? name) := by
  unfold withFile
  split
  · next taken =>
    obtain ⟨home, member, named⟩ := List.any_eq_true.mp taken
    by_cases own : file.module = name
    · subst own
      have found : (modules.find? (·.name == file.module)).isSome :=
        List.find?_isSome.mpr ⟨home, member, named⟩
      rw [Option.or_of_isSome found]
    · rw [SourceFile.definition?_other own, Option.or_none]
  · rw [List.find?_append]
    congr 1
    cases indexed : file.body? with
    | none => simp [SourceFile.definition?, indexed]
    | some body =>
      have named : (indexModule file body).name = file.module := rfl
      by_cases own : file.module = name
      · simp [SourceFile.definition?, indexed, named, own]
      · simp [SourceFile.definition?, named, own]

theorem find?_foldl_withFile (modules : List LoadedModule) (files : List SourceFile)
    (name : String) : (files.foldl withFile modules).find? (·.name == name) =
      (modules.find? (·.name == name)).or (files.findSome? (·.definition? name)) := by
  induction files generalizing modules with
  | nil => rw [List.foldl_nil, List.findSome?_nil, Option.or_none]
  | cons file rest ih =>
    rw [List.foldl_cons, ih, find?_withFile, Option.or_assoc, List.findSome?_cons]
    cases file.definition? name <;> rfl

/-- A module comes from the first file that defines it. -/
theorem find?_modulesOf (files : List SourceFile) (name : String) :
    (modulesOf files).find? (·.name == name) = files.findSome? (·.definition? name) :=
  find?_foldl_withFile [] files name

/-- A loading that comes to its end has gone by the texts of the files. -/
theorem Loading.addAll_modules (faithful : loading.cache.Faithful texts)
    (separated : Separated texts) (seen : ∀ text ∈ textsOf files, text ∈ texts)
    (added : loading.addAll files = .ok next) :
    next.modules = files.foldl withFile loading.modules := by
  induction files generalizing loading with
  | nil =>
    cases added
    rfl
  | cons file rest ih =>
    unfold Loading.addAll at added
    split at added
    · cases added
    · next first first_ok =>
      have later (text : String) (member : text ∈ textsOf rest) : text ∈ texts :=
        seen text ((List.sublist_cons_self file rest).filterMap _ |>.subset member)
      obtain ⟨taken, modules, same⟩ | ⟨-, parsed, parses, -⟩ := Loading.add_cases first_ok
      · have passed : withFile loading.modules file = loading.modules := if_pos taken
        rw [List.foldl_cons, passed, ← modules]
        exact ih (same ▸ faithful) later added
      · obtain ⟨-, text, encodable, -⟩ := ParseCache.parse_grows parses
        have known := SourceText.toString?_of_encodable encodable
        have inTexts := seen text (List.mem_filterMap.mpr ⟨file, List.mem_cons_self .., known⟩)
        obtain ⟨_, again, modules, faithful⟩ := Loading.add_ok faithful separated known inTexts
        rw [first_ok] at again
        cases again
        rw [List.foldl_cons, ← modules]
        exact ih faithful later added

/-- What a program takes for a module is the first file that defines it, up to the kinds of its
classes. -/
theorem load_module? (faithful : cache.Faithful texts) (separated : Separated texts)
    (seen : ∀ text ∈ textsOf files, text ∈ texts) (loads : load limits cache files = .ok loaded)
    (name : String) : (loaded.program.module? name).map LoadedModule.plain =
      (files.findSome? (·.definition? name)).map LoadedModule.plain := by
  obtain ⟨loading, added, rfl⟩ := load_eq_ofLoading loads
  have start : (⟨[], cache, []⟩ : Loading).cache.Faithful texts := faithful
  have modules : loading.modules = modulesOf files :=
    Loading.addAll_modules start separated seen added
  rw [← module?_plain, ofLoading_plain, module?_plain, module?, modules, find?_modulesOf]

/-- When the first file of a module can be indexed, it is what the module is loaded from. -/
theorem load_first {body : List Stmt} (faithful : cache.Faithful texts)
    (separated : Separated texts) (seen : ∀ text ∈ textsOf files, text ∈ texts)
    (loads : load limits cache files = .ok loaded) {earlier later : List SourceFile}
    (split : files = earlier ++ file :: later)
    (first : ∀ other ∈ earlier, other.module ≠ file.module) (indexed : file.body? = some body) :
    ∃ home, loaded.program.module? file.module = some home ∧
      home.plain = (indexModule file body).plain := by
  have defined : files.findSome? (·.definition? file.module) = some (indexModule file body) :=
    List.findSome?_eq_some_iff.mpr ⟨earlier, file, later, split,
      SourceFile.definition?_own indexed,
      fun other member => SourceFile.definition?_other (first other member)⟩
  have found := load_module? faithful separated seen loads file.module
  rw [defined] at found
  exact Option.map_eq_some_iff.mp found

/-- Nothing ends a loading of texts that have UTF-8 forms. -/
theorem exists_load (limits : Limits) (encodable : AllEncodable files) :
    ∃ loaded, load limits .empty files = .ok loaded := by
  cases loads : load limits .empty files with
  | ok loaded => exact ⟨loaded, rfl⟩
  | error error =>
    obtain ⟨file, member, surrogates⟩ := load_eq_error loads
    obtain ⟨text, known, -⟩ := encodable.text member
    rw [SourceText.encodable_ok known] at surrogates
    cases surrogates

theorem findSome?_behind {first second : SourceFile} (skipped : first.body? = none) :
    [first, second].findSome? (·.definition? name) = second.definition? name := by
  have nothing : first.definition? name = none := by simp [SourceFile.definition?, skipped]
  rw [List.findSome?_cons, nothing, List.findSome?_singleton]

/-- Behind a file that is not indexed, a second one is the only source of modules. -/
theorem load_behind {first second : SourceFile} {text : String} {home : LoadedModule}
    (known : first.text.toString? = some text) (skipped : first.body? = none)
    (loads : load limits .empty [first, second] = .ok loaded)
    (member : home ∈ loaded.program.modules) :
    home.context = ⟨second.module, second.isPackage⟩ := by
  obtain ⟨loading, added, rfl⟩ := load_eq_ofLoading loads
  obtain ⟨before, inLoading, same⟩ := mem_ofLoading member
  have start : (⟨[], .empty, []⟩ : Loading).cache.Faithful [text] := ParseCache.empty_faithful _
  obtain ⟨middle, first_ok, modules, -⟩ :=
    Loading.add_ok start (separated_singleton text) known (List.mem_singleton_self text)
  have nothing : middle.modules = [] := by simp [modules, withFile, skipped]
  rw [addAll_cons first_ok, Loading.addAll] at added
  cases second_ok : middle.add second with
  | error error => simp [second_ok] at added
  | ok next =>
    simp only [second_ok, Loading.addAll, Except.ok.injEq] at added
    subst added
    obtain ⟨-, modules, -⟩ | ⟨-, parsed, -, rfl⟩ := Loading.add_cases second_ok
    · rw [modules, nothing] at inLoading
      cases inLoading
    · rw [Loading.take_modules, nothing, List.nil_append, Option.mem_toList,
        Option.map_eq_some_iff] at inLoading
      obtain ⟨body, -, rfl⟩ := inLoading
      exact congrArg LoadedModule.context same

end Program

open Discovery Program

variable {store : Store} {exclude : List String} {root : Path}

/-- Of the files below a root, no file of the same module comes before that of a package. -/
theorem Discovery.package_first (found : (discover store [root] exclude).1 = .ok files)
    (member : file ∈ files) (isPackage : file.isPackage = true) :
    ∃ earlier later, files = earlier ++ file :: later ∧
      ∀ other ∈ earlier, other.module ≠ file.module := by
  obtain ⟨earlier, later, split, new⟩ := List.eq_append_cons_of_mem member
  refine ⟨earlier, later, split, fun other inEarlier same => ?_⟩
  have pairs := discover_pairwise found
  rw [split, List.pairwise_append] at pairs
  rcases pairs.2.2 other inEarlier file (List.mem_cons_self ..) same with rfl | ⟨_, _, beside⟩
  · exact new inEarlier
  · rw [beside.isPlain] at isPackage
    cases isPackage

/-! A package with a module beside it. -/

def besideStore (package plain : String) : Store where
  entries :=
    [(["src"], .directory), (["src", "p"], .directory),
     (["src", "p", "__init__.py"], .file (utf8 package)), (["src", "p.py"], .file (utf8 plain))]

def packageFileOf (text : String) : SourceFile :=
  ⟨"src/p/__init__.py", "p", true, .ofString text⟩

def plainFileOf (text : String) : SourceFile := ⟨"src/p.py", "p", false, .ofString text⟩

theorem discover_besideStore (package plain : String)
    (packageRead : Encoding.readText? Encoding.codecs (utf8 package) = some (.ofString package))
    (plainRead : Encoding.readText? Encoding.codecs (utf8 plain) = some (.ofString plain)) :
    (discover (besideStore package plain) [⟨0, ["src"]⟩] []).1 =
      .ok [packageFileOf package, plainFileOf plain] := by
  have located : (besideStore package plain).DirectoryAt ⟨0, ["src"]⟩ ["src"] := ⟨rfl, rfl⟩
  have paths : sourcePaths (besideStore package plain) ⟨0, ["src"]⟩ =
      [packagePath ["p"], plainPath [] "p"] := by
    rw [sourcePaths_of_sorted [⟨0, ["p"]⟩, packagePath ["p"], plainPath [] "p"] located rfl
      (by decide)]
    decide
  have packageNamed : standing [] (packagePath ["p"]) = .importable "p" := by decide +kernel
  have plainNamed : standing [] (plainPath [] "p") = .importable "p" := by decide +kernel
  have packageVisited : visit (besideStore package plain) [] ⟨0, ["src"]⟩ (packagePath ["p"]) =
      .ok ([packageFileOf package], []) := visit_importable packageNamed rfl packageRead
  have plainVisited : visit (besideStore package plain) [] ⟨0, ["src"]⟩ (plainPath [] "p") =
      .ok ([plainFileOf plain], []) := visit_importable plainNamed rfl plainRead
  simp only [discover, candidates, List.flatMap_cons, List.flatMap_nil, List.append_nil, paths,
    List.map_cons, List.map_nil, visitAll, packageVisited, plainVisited, Except.map]
  rfl

/-! The texts of chains are read as they were written, by their first lines. -/

def chainStart : List UInt8 := [105, 102, 32, 48, 58, 32, 112, 97, 115, 115, 10]

theorem utf8_chainSource (count : Nat) : utf8 (chainSource count) =
    chainStart ++ (elifLines count).flatMap String.utf8EncodeChar := by
  rw [Encoding.utf8_eq_flatMap, chainSource, String.toList_ofList, Source.chainText,
    ← List.append_assoc, List.flatMap_append]
  rfl

theorem splitLine_chainStart (rest : List UInt8) :
    Encoding.splitLine (chainStart ++ rest) = (chainStart, rest) := rfl

theorem judgeLine_chainStart (codecs : Codecs) :
    Encoding.judgeLine codecs false chainStart = .silent "if 0: pass\n".toList := rfl

theorem readText?_chainSource (codecs : Codecs) (count : Nat) :
    Encoding.readText? codecs (utf8 (chainSource count)) =
      some (.ofString (chainSource count)) := by
  apply Encoding.readText?_utf8
  · rw [utf8_chainSource]
    rfl
  · rw [utf8_chainSource, Encoding.ofContent?, splitLine_chainStart]
    simp only [judgeLine_chainStart]
    rfl

/-- Two files below a root are one module only when the first is that of a package and the other
stands beside it. A package is loaded from its file when that has a tree, unless the branches in it
are nested too deeply. -/
theorem discover_packages [Characters] (found : (discover store [root] exclude).1 = .ok files) :
    (files.Pairwise fun a b => a.module = b.module →
      a = b ∨ ∃ above name, PackageBeside root above name a b) ∧
    ∀ limits cache loaded texts, ParseCache.Faithful texts cache → Separated texts →
      (∀ text ∈ textsOf files, text ∈ texts) → load limits cache files = .ok loaded →
      ∀ package ∈ files, package.isPackage = true → ∀ text body, package.text = .ofString text →
        freshTree text = some body → branchDepth body ≤ maxBranchDepth →
        ∃ home, loaded.program.module? package.module = some home ∧
          home.plain = (indexModule package body).plain := by
  refine ⟨discover_pairwise found, ?_⟩
  intro limits cache loaded texts faithful separated seen loads package member isPackage text body
    holds tree shallow
  obtain ⟨earlier, later, split, first⟩ := package_first found member isPackage
  have indexed : package.body? = some body := by
    rw [SourceFile.body?, holds, SourceText.toString?_ofString, Option.bind_some, tree]
    exact Option.filter_eq_some_iff.mpr ⟨rfl, decide_eq_true shallow⟩
  exact load_first faithful separated seen loads split first indexed

theorem discover_packages_beside :
    let package := packageFileOf "class A: 0\n"
    let plain := plainFileOf "class B: 0\n"
    (discover (besideStore "class A: 0\n" "class B: 0\n") [⟨0, ["src"]⟩] []).1 =
        .ok [package, plain] ∧
      (∃ above name, PackageBeside ⟨0, ["src"]⟩ above name package plain) ∧
      ∃ loaded home, load .standard .empty [package, plain] = .ok loaded ∧
        loaded.program.module? "p" = some home ∧ home.context = ⟨"p", true⟩ := by
  intro package plain
  have found : (discover (besideStore "class A: 0\n" "class B: 0\n") [⟨0, ["src"]⟩] []).1 =
      .ok [package, plain] :=
    discover_besideStore _ _ (by decide +kernel) (by decide +kernel)
  obtain ⟨pairs, loadsPackages⟩ := discover_packages found
  have different : package ≠ plain := by decide
  have separated : Separated (textsOf [package, plain]) := by decide +kernel
  obtain ⟨loaded, loads⟩ : ∃ loaded, load .standard .empty [package, plain] = .ok loaded := by
    exact exists_load _ (by decide +kernel)
  have checked : (freshTree "class A: 0\n").any (fun body => branchDepth body ≤ maxBranchDepth) =
      true := by decide +kernel
  obtain ⟨body, tree, shallow⟩ := (Option.any_eq_true _ _).mp checked
  obtain ⟨home, isLoaded, same⟩ := loadsPackages .standard .empty loaded _
    (ParseCache.empty_faithful _) separated (fun _ member => member) loads package (by simp) rfl
    "class A: 0\n" body rfl tree (of_decide_eq_true shallow)
  refine ⟨found, ?_, loaded, home, loads, isLoaded, congrArg LoadedModule.context same⟩
  exact ((List.pairwise_pair.mp pairs) rfl).resolve_left different

/-- A package whose branches are nested too deeply for it to be indexed, though it has a tree, gives
way to the module beside it. -/
theorem package_gives_way :
    let package := packageFileOf (chainSource 1200)
    let plain := plainFileOf "class C: 0\n"
    (discover (besideStore (chainSource 1200) "class C: 0\n") [⟨0, ["src"]⟩] []).1 =
        .ok [package, plain] ∧
      (freshTree (chainSource 1200)).isSome ∧ (freshTree "class C: 0\n").isSome ∧
      ∃ loaded, load .standard .empty [package, plain] = .ok loaded ∧
        (∀ home, loaded.program.module? "p" = some home → home.context.isPackage = false) ∧
        (Separated (textsOf [package, plain]) → (loaded.program.module? "p").isSome) := by
  intro package plain
  have encodable : AllEncodable [package, plain] := by
    simp [AllEncodable, package, plain, packageFileOf, plainFileOf, SourceText.toString?_ofString]
  have holds : package.text = .ofString (chainSource 1200) := rfl
  have skipped : package.body? = none := by
    have deep : ¬ 1200 < maxBranchDepth := by decide
    rw [← SourceFile.body?_chain holds] at deep
    simpa using deep
  obtain ⟨loaded, loads⟩ := exists_load .standard encodable
  refine ⟨discover_besideStore _ _ (readText?_chainSource _ 1200) (by decide +kernel), ?_,
    by decide +kernel, loaded, loads, fun home found => ?_, fun separated => ?_⟩
  · rw [freshTree_chainSource]
    rfl
  · rw [load_behind (SourceText.toString?_ofString _) skipped loads (module?_mem found).1]
    rfl
  · have defines : (plain.definition? "p").isSome = true := by decide +kernel
    have module := load_module? (ParseCache.empty_faithful _) separated (fun _ member => member)
      loads "p"
    rw [findSome?_behind skipped] at module
    have found := congrArg Option.isSome module
    rw [Option.isSome_map, Option.isSome_map] at found
    exact found.trans defines

end EnumLookup
