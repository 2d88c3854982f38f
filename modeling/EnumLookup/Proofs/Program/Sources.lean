import EnumLookup.Proofs.Declaration.Nesting
import EnumLookup.Proofs.Program.Indexing
import EnumLookup.Proofs.Program.Reading

/-!
The sources of modules. A tree that is remembered for a text stays to the end of the loading, so
modules of files with one text are indexed from one tree. When the files have one path too, what is
declared in the modules differs in the module alone.
-/
namespace EnumLookup

open Declaration Source Text

namespace Declaration

def ClassDeclaration.within (declaration : ClassDeclaration) (module : String) :
    ClassDeclaration :=
  { declaration with module }

theorem collect_within (scope : Scope) (module : String) (block : List Stmt) :
    (collect scope block).map (·.within module) = collect { scope with module } block := by
  rw [collect_eq_flatMap { scope with module }]
  refine collect_induction (motive := fun scope statements declarations =>
    declarations.map (·.within module) =
      statements.flatMap { scope with module }.declareAll) ?_ ?_ ?_ scope block
  · intro scope
    rfl
  · intro scope statements others first rest inFirst inRest
    rw [List.map_append, List.flatMap_append, inFirst, inRest]
  · intro scope header body inBody
    rw [List.map_cons, inBody, List.flatMap_singleton, Scope.declareAll, collect_eq_flatMap]
    rfl

theorem declarations_within (path module other : String) (body : List Stmt) :
    (declarations path module body).map (·.within other) = declarations path other body :=
  collect_within ⟨path, module, ""⟩ other body

end Declaration

namespace ParseCache

variable {cache : ParseCache} {file : SourceFile} {parsed : Parsed}

def Grows (before after : ParseCache) : Prop :=
  ∀ key tree, before.trees.lookup key = some tree → after.trees.lookup key = some tree

/-- Parsing forgets nothing, and remembers the tree of the file. -/
theorem parse_grows [Characters] (parses : cache.parse file = .ok parsed) :
    cache.Grows parsed.cache ∧ ∃ text, file.text.encodable = .ok text ∧
      parsed.cache.trees.lookup (SourceFile.contentKey text) = some parsed.tree := by
  unfold parse at parses
  split at parses
  · cases parses
  · next text encodable =>
    dsimp only at parses
    split at parses
    · next tree found =>
      cases parses
      exact ⟨fun _ _ known => known, text, encodable, found⟩
    · next new =>
      cases parses
      refine ⟨fun key tree known => ?_, text, encodable, ?_⟩
      · rw [learn_trees]
        by_cases same : key = SourceFile.contentKey text
        · rw [same, new] at known
          cases known
        · rwa [List.lookup_cons, beq_false_of_ne same]
      · rw [learn_trees, learn_tree, List.lookup_cons_self]

end ParseCache

namespace LoadedModule

variable {home other : LoadedModule} {cache after : ParseCache} {file otherFile : SourceFile}

/-- The module is indexed from the tree that is remembered for the text of the file, up to the
kinds of its classes. -/
def IsReadFrom (cache : ParseCache) (home : LoadedModule) (file : SourceFile) : Prop :=
  ∃ text body, file.text.encodable = .ok text ∧
    cache.trees.lookup (SourceFile.contentKey text) = some (some body) ∧
    home.plain = (Program.indexModule file body).plain

theorem IsReadFrom.grow (readFrom : home.IsReadFrom cache file) (grows : cache.Grows after) :
    home.IsReadFrom after file := by
  obtain ⟨text, body, encodable, known, same⟩ := readFrom
  exact ⟨text, body, encodable, grows _ _ known, same⟩

theorem IsReadFrom.isOf (readFrom : home.IsReadFrom cache file) : home.IsOf file := by
  obtain ⟨text, body, -, -, same⟩ := readFrom
  rw [← Program.isOf_plain, same, Program.isOf_plain]
  exact Program.indexModule_isOf file body

/-- Modules of one path and one text declare the same, but for the module. -/
theorem IsReadFrom.same_declarations (readFrom : home.IsReadFrom cache file)
    (otherFrom : other.IsReadFrom cache otherFile) (path : file.path = otherFile.path)
    (text : file.text = otherFile.text) :
    other.declarations.map (·.plain) =
      home.declarations.map fun declaration => declaration.plain.within other.name := by
  obtain ⟨_, body, encodable, known, same⟩ := readFrom
  obtain ⟨_, otherBody, otherEncodable, otherKnown, otherSame⟩ := otherFrom
  rw [text, otherEncodable] at encodable
  cases encodable
  rw [known] at otherKnown
  cases otherKnown
  have name : other.name = otherFile.module := congrArg LoadedModule.name otherSame
  have here : home.declarations.map (·.plain) =
      (Declaration.declarations file.path file.module body).map (·.plain) :=
    congrArg LoadedModule.declarations same
  calc other.declarations.map (·.plain)
      = (Declaration.declarations otherFile.path otherFile.module body).map (·.plain) :=
        congrArg LoadedModule.declarations otherSame
    _ = ((Declaration.declarations file.path file.module body).map
          (·.within otherFile.module)).map (·.plain) := by rw [declarations_within, path]
    _ = (home.declarations.map (·.plain)).map (·.within otherFile.module) := by
        rw [here, List.map_map, List.map_map]
        rfl
    _ = home.declarations.map fun declaration => declaration.plain.within other.name := by
        rw [List.map_map, name]
        rfl

end LoadedModule

namespace Program

variable {files : List SourceFile} {file : SourceFile} {loading next : Loading}

def Loading.ReadsFrom (files : List SourceFile) (loading : Loading) : Prop :=
  ∀ home ∈ loading.modules, ∃ file ∈ files, home.IsReadFrom loading.cache file

theorem Loading.ReadsFrom.add [Characters] (before : loading.ReadsFrom files)
    (member : file ∈ files) (added : loading.add file = .ok next) : next.ReadsFrom files := by
  obtain ⟨-, modules, cache⟩ | ⟨-, parsed, parsed_ok, rfl⟩ := Loading.add_cases added
  · unfold Loading.ReadsFrom
    rw [modules, cache]
    exact before
  · obtain ⟨grows, text, encodable, known⟩ := ParseCache.parse_grows parsed_ok
    unfold Loading.ReadsFrom
    rw [Loading.take_modules, Loading.take_cache]
    refine List.forall_mem_append.mpr ⟨fun home old => ?_, fun home new => ?_⟩
    · obtain ⟨origin, inFiles, readFrom⟩ := before home old
      exact ⟨origin, inFiles, readFrom.grow grows⟩
    · obtain ⟨body, found, rfl⟩ := Option.map_eq_some_iff.mp (Option.mem_toList.mp new)
      rw [(Option.filter_eq_some_iff.mp found).1] at known
      exact ⟨file, member, text, body, encodable, known, rfl⟩

theorem load_readFrom [Characters] {limits : Limits} {cache : ParseCache} {loaded : Loaded}
    (loads : load limits cache files = .ok loaded) :
    ∀ home ∈ loaded.program.modules, ∃ file ∈ files, home.IsReadFrom loaded.cache file := by
  obtain ⟨loading, added, rfl⟩ := load_eq_ofLoading loads
  have start : Loading.ReadsFrom files ⟨[], cache, []⟩ := by simp [Loading.ReadsFrom]
  have reads := Loading.addAll_induction (motive := Loading.ReadsFrom files)
    (fun _ _ member _ before added => before.add member added) start added
  intro home member
  obtain ⟨before, inLoading, same⟩ := mem_ofLoading member
  obtain ⟨file, inFiles, text, body, encodable, known, indexed⟩ := reads before inLoading
  exact ⟨file, inFiles, text, body, encodable, known, same.trans indexed⟩

end Program

end EnumLookup
