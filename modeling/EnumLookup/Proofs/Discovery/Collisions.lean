import EnumLookup.Proofs.Discovery.Found

/-!
Files of one module. Below a root a module can only stand in two places: in the package file of the
directory with its name, and in the file with its name beside this directory. Where it stands in
both the package comes first, as a name comes before the same name with an extension.
-/
namespace EnumLookup

open Text

def packagePath (parts : List String) : Path := ⟨0, parts ++ [packageFile]⟩

def plainPath (above : List String) (name : String) : Path :=
  ⟨0, above ++ [name ++ Discovery.sourceExtension]⟩

theorem isWord_of_importable {part : String} (importable : Identifier.isImportable part = true) :
    Dotted.IsWord part := by
  refine ⟨ne_empty_of_importable importable, fun dot => ?_⟩
  have continues := isContinue_of_mem (Bool.and_eq_true_iff.mp importable).1 dot
  revert continues
  decide

/-- The package comes before the module beside it. -/
theorem plainPath_not_le (above : List String) (name : String) :
    Path.le (plainPath above name) (packagePath (above ++ [name])) = false := by
  have longer : name < name ++ Discovery.sourceExtension := by
    rw [String.lt_iff, String.toList_append]
    conv_lhs => rw [← List.append_nil name.toList]
    exact List.append_left_lt (by decide)
  have before : (packagePath (above ++ [name])).components < (plainPath above name).components := by
    simp only [packagePath, plainPath, Path.components, if_true, List.append_assoc]
    exact List.append_left_lt (List.Lex.rel longer)
  rw [Bool.eq_false_iff, Ne, Discovery.le_iff]
  exact List.not_le.mpr before

namespace Discovery

variable {store : Store} {exclude : List String} {root relative other : Path}
  {files : List SourceFile} {file : SourceFile} {parts : List String} {module : String}

def IsPlaceOf (parts : List String) (relative : Path) : Prop :=
  relative = packagePath parts ∨
    ∃ above name, parts = above ++ [name] ∧ name ≠ packageStem ∧ relative = plainPath above name

theorem moduleOfParts?_stem {above : List String} {stem : String}
    (named : moduleOfParts? (above ++ [stem]) = some module) :
    module = Dotted.join (if stem = packageStem then above else above ++ [stem]) := by
  simp only [moduleOfParts?, List.getLast?_concat, List.dropLast_concat, Option.some.injEq] at named
  generalize (if stem = packageStem then above else above ++ [stem]) = kept at named ⊢
  split at named
  · cases named
  · exact (Option.some.inj named).symm

/-- The path of a source file that can be imported is one of those where its module stands. -/
theorem exists_isPlaceOf (rootless : relative.root = 0) (source : isSourceName relative.name = true)
    (named : moduleName? relative = .ok (some module)) :
    ∃ parts, (∀ part ∈ parts, Dotted.IsWord part) ∧ module = Dotted.join parts ∧
      IsPlaceOf parts relative := by
  obtain ⟨_, names⟩ := relative
  obtain rfl : _ = 0 := rootless
  rcases List.eq_nil_or_concat' names with rfl | ⟨above, last, rfl⟩
  · cases source
  · have name : Path.name ⟨0, above ++ [last]⟩ = last := by simp [Path.name]
    rw [name] at source
    simp only [moduleName?, Path.withoutExtension?, List.getLast?_concat, List.dropLast_concat,
      Path.components, if_true, Except.ok.injEq] at named
    have importable := moduleOfParts?_importable named
    have words (part : String) (member : part ∈ above ++ [Path.stem last]) : Dotted.IsWord part :=
      isWord_of_importable (importable part member)
    have whole := eq_stem_of_source source (importable _ (by simp))
    generalize Path.stem last = stem at named words whole
    subst whole
    refine ⟨_, ?_, moduleOfParts?_stem named, ?_⟩
    · split
      · exact fun part member => words part (List.mem_append_left _ member)
      · exact words
    · split
      · next isPackage =>
        subst isPackage
        exact .inl rfl
      · next isPlain => exact .inr ⟨above, stem, rfl, isPlain, rfl⟩

theorem name_packagePath (parts : List String) : (packagePath parts).name = packageFile := by
  simp [packagePath, Path.name]

theorem name_plainPath {above : List String} {name : String} (plain : name ≠ packageStem) :
    (plainPath above name).name ≠ packageFile := by
  intro same
  rw [plainPath, Path.name, List.getLast?_concat, Option.getD_some] at same
  exact plain ((String.append_left_inj sourceExtension).mp same)

def FoundBy (store : Store) (exclude : List String) (root : Path) (file : SourceFile)
    (relative : Path) : Prop :=
  ∃ events, visit store exclude root relative = .ok ([file], events)

theorem FoundBy.unique {another : SourceFile} (found : FoundBy store exclude root file relative)
    (again : FoundBy store exclude root another relative) : file = another := by
  obtain ⟨events, visited⟩ := found
  obtain ⟨more, visitedAgain⟩ := again
  rw [visited] at visitedAgain
  cases visitedAgain
  rfl

/-- A path adds one file or none. Its name tells whether the file is that of a package. -/
theorem visit_cases {own : List SourceFile} {events : List Event}
    (visited : visit store exclude root relative = .ok (own, events)) :
    own = [] ∨ ∃ file, own = [file] ∧ file.isPackage = (relative.name == packageFile) := by
  unfold visit at visited
  split at visited
  · cases visited
    exact .inl rfl
  · cases visited
    exact .inl rfl
  · cases visited
    exact .inl rfl
  · unfold readModule at visited
    dsimp only at visited
    cases held : store.read (root.append relative) with
    | error error =>
      rw [held] at visited
      cases visited
    | ok bytes =>
      rw [held, Except.map] at visited
      split at visited
      · cases visited
        exact .inr ⟨_, rfl, rfl⟩
      · cases visited
        exact .inl rfl

theorem FoundBy.isPackage (found : FoundBy store exclude root file relative) :
    file.isPackage = (relative.name == packageFile) := by
  obtain ⟨events, visited⟩ := found
  rcases visit_cases visited with none | ⟨single, own, isPackage⟩
  · cases none
  · rw [List.singleton_inj.mp own, isPackage]

theorem foundBy_of_mem {paths : List Path}
    (visited : (visitAll store exclude (paths.map (root, ·))).1 = .ok files)
    (member : file ∈ files) : ∃ relative ∈ paths, FoundBy store exclude root file relative := by
  obtain ⟨candidate, listed, own, events, here, inOwn⟩ := mem_visitAll visited member
  obtain ⟨relative, inPaths, rfl⟩ := List.mem_map.mp listed
  rcases visit_cases here with rfl | ⟨single, rfl, -⟩
  · cases inOwn
  · obtain rfl := List.mem_singleton.mp inOwn
    exact ⟨relative, inPaths, events, here⟩

/-- Files are found in the order of the paths. -/
theorem visitAll_pairwise {r : Path → Path → Prop} {paths : List Path} (sorted : paths.Pairwise r)
    (visited : (visitAll store exclude (paths.map (root, ·))).1 = .ok files) :
    files.Pairwise fun a b => ∃ first second, r first second ∧
      FoundBy store exclude root a first ∧ FoundBy store exclude root b second := by
  induction paths generalizing files with
  | nil =>
    cases visited
    exact .nil
  | cons first rest ih =>
    obtain ⟨own, others, events, here, rests, rfl⟩ := visitAll_cons_ok.mp visited
    obtain ⟨before, sorted⟩ := List.pairwise_cons.mp sorted
    rcases visit_cases here with rfl | ⟨file, rfl, -⟩
    · exact ih sorted rests
    · refine List.pairwise_cons.mpr ⟨fun other member => ?_, ih sorted rests⟩
      obtain ⟨second, inRest, found⟩ := foundBy_of_mem rests member
      exact ⟨first, second, before second inRest, ⟨events, here⟩, found⟩

/-- The file of a package, and that of the module of the same name beside the directory of the
package. -/
structure PackageBeside (root : Path) (above : List String) (name : String)
    (package plain : SourceFile) : Prop where
  module : package.module = Dotted.join (above ++ [name])
  same : plain.module = package.module
  packageAt : package.path = (root.append (packagePath (above ++ [name]))).text
  plainAt : plain.path = (root.append (plainPath above name)).text
  isPackage : package.isPackage = true
  isPlain : plain.isPackage = false

structure Stands (root : Path) (parts : List String) (relative : Path) (file : SourceFile) :
    Prop where
  words : ∀ part ∈ parts, Dotted.IsWord part
  module : file.module = Dotted.join parts
  path : file.path = (root.append relative).text
  isPackage : file.isPackage = (relative.name == packageFile)
  place : IsPlaceOf parts relative

theorem FoundBy.stands (found : FoundBy store exclude root file relative)
    (isRead : relative ∈ readPaths store exclude root) :
    ∃ parts, Stands root parts relative file := by
  obtain ⟨rootless, source⟩ := mem_sourcePaths (List.mem_filter.mp isRead).1
  have isPackage := found.isPackage
  obtain ⟨events, visited⟩ := found
  have foundAt := mem_visit rootless source visited (List.mem_cons_self ..)
  obtain ⟨parts, words, module, place⟩ := exists_isPlaceOf rootless source foundAt.module
  exact ⟨parts, words, module, foundAt.path, isPackage, place⟩

/-- Two places of one module are one place, or they are those of a package and of the module beside
its directory. -/
theorem Stands.beside {another : SourceFile} (stands : Stands root parts relative file)
    (others : Stands root parts other another) (ordered : Path.le relative other = true) :
    relative = other ∨ ∃ above name, PackageBeside root above name file another := by
  obtain ⟨-, module, path, isPackage, rfl | ⟨above, name, rfl, plain, rfl⟩⟩ := stands
  · obtain ⟨-, otherModule, otherPath, isPlain, rfl | ⟨above, name, rfl, plain, rfl⟩⟩ := others
    · exact .inl rfl
    · refine .inr ⟨above, name, module, otherModule.trans module.symm, path, otherPath, ?_, ?_⟩
      · rw [isPackage, name_packagePath, beq_self_eq_true]
      · rw [isPlain, beq_eq_false_iff_ne.mpr (name_plainPath plain)]
  · obtain ⟨-, -, -, -, rfl | ⟨outer, other, same, -, rfl⟩⟩ := others
    · rw [plainPath_not_le] at ordered
      cases ordered
    · obtain ⟨rfl, names⟩ := List.append_inj' same rfl
      rw [List.singleton_inj.mp names]
      exact .inl rfl

/-- Of two files found below a root that are one module, the first is that of a package, and the
other stands beside it. -/
theorem discover_pairwise (found : (discover store [root] exclude).1 = .ok files) :
    files.Pairwise fun a b => a.module = b.module →
      a = b ∨ ∃ above name, PackageBeside root above name a b := by
  rw [discover_eq, List.flatMap_cons, List.flatMap_nil, List.append_nil] at found
  have sorted := List.Pairwise.and_mem.mp (readPaths_sorted store exclude root)
  refine (visitAll_pairwise sorted found).imp ?_
  rintro a b ⟨first, second, ⟨isRead, alsoRead, ordered⟩, foundFirst, foundSecond⟩ same
  obtain ⟨parts, stands⟩ := foundFirst.stands isRead
  obtain ⟨others, alsoStands⟩ := foundSecond.stands alsoRead
  rw [stands.module, alsoStands.module] at same
  obtain rfl := Dotted.join_injective stands.words alsoStands.words same
  rcases stands.beside alsoStands ordered with rfl | beside
  · exact .inl (foundFirst.unique foundSecond)
  · exact .inr beside

end Discovery

end EnumLookup
