import EnumLookup.Proofs.Program.Transparency
import EnumLookup.Proofs.Source.Positions

/-!
What loaded modules are made of: each is indexed from the tree of some text, whatever the cache
remembered of it. So the names of its classes are those that a source can give.
-/
namespace EnumLookup

open Declaration Source Text

variable [Characters]

namespace ParseCache

variable {cache : ParseCache} {file : SourceFile} {parsed : Parsed}

def HoldsTrees (cache : ParseCache) : Prop :=
  ∀ entry ∈ cache.trees, ∃ text, entry.2 = freshTree text

theorem empty_holdsTrees : empty.HoldsTrees := by
  intro entry member
  cases member

theorem HoldsTrees.parse (trees : cache.HoldsTrees) (parses : cache.parse file = .ok parsed) :
    parsed.cache.HoldsTrees ∧ ∃ text, parsed.tree = freshTree text := by
  unfold ParseCache.parse at parses
  split at parses
  · cases parses
  · next text _ =>
    dsimp only at parses
    split at parses
    · next tree found =>
      cases parses
      obtain ⟨before, after, place, -⟩ := List.lookup_eq_some_iff.mp found
      exact ⟨trees, trees (SourceFile.contentKey text, tree) (by simp [place])⟩
    · cases parses
      refine ⟨fun entry member => ?_, text, learn_tree ..⟩
      rw [learn_trees] at member
      rcases List.mem_cons.mp member with rfl | old
      · exact ⟨text, rfl⟩
      · exact trees entry old

end ParseCache

/-- The module is indexed from the tree of a text, up to the kinds of its classes. -/
def LoadedModule.IsIndexed (home : LoadedModule) : Prop :=
  ∃ file text body, freshTree text = some body ∧
    home.plain = (Program.indexModule file body).plain

def LoadedModule.NamesWords (home : LoadedModule) : Prop :=
  ∀ declaration ∈ home.declarations, Dotted.IsWord declaration.header.name

theorem freshTree_parses {text : String} {body : List Stmt} (tree : freshTree text = some body) :
    parseModule text.toList = .ok body := by
  unfold freshTree at tree
  cases parsed : parseModule text.toList with
  | error failure =>
    rw [parsed] at tree
    cases tree
  | ok parsedBody =>
    rw [parsed] at tree
    cases tree
    rfl

namespace LoadedModule

variable {home : LoadedModule} {file : SourceFile} {body : List Stmt}

omit [Characters] in
theorem headers_of_plain (same : home.plain = (Program.indexModule file body).plain) :
    home.declarations.map (·.header) = headers body := by
  rw [← map_header_collect ⟨file.path, file.module, ""⟩]
  have plain := congrArg (fun module => module.declarations.map (·.header)) same
  simp only [LoadedModule.plain, List.map_map] at plain
  exact plain

theorem IsIndexed.headers_parsed (indexed : home.IsIndexed) :
    ∃ text body, parseModule text = .ok body ∧
      home.declarations.map (·.header) = headers body := by
  obtain ⟨file, text, body, tree, same⟩ := indexed
  exact ⟨_, body, freshTree_parses tree, headers_of_plain same⟩

theorem IsIndexed.namesWords (indexed : home.IsIndexed) : home.NamesWords := by
  obtain ⟨text, body, parsed, same⟩ := indexed.headers_parsed
  intro declaration declared
  apply parseModule_names parsed
  rw [← same]
  exact List.mem_map_of_mem declared

/-- The classes of a module are at different places. -/
theorem IsIndexed.positions (indexed : home.IsIndexed) :
    (home.declarations.map (·.header.position)).Nodup := by
  obtain ⟨text, body, parsed, same⟩ := indexed.headers_parsed
  have different := parseModule_positions parsed
  rwa [← same, List.map_map] at different

end LoadedModule

namespace Program

variable {files : List SourceFile} {file : SourceFile} {loading next : Loading}

theorem Loading.add_isIndexed (trees : loading.cache.HoldsTrees)
    (before : ∀ home ∈ loading.modules, home.IsIndexed) (added : loading.add file = .ok next) :
    next.cache.HoldsTrees ∧ ∀ home ∈ next.modules, home.IsIndexed := by
  obtain ⟨-, modules, cache⟩ | ⟨-, parsed, parsed_ok, rfl⟩ := Loading.add_cases added
  · rw [modules, cache]
    exact ⟨trees, before⟩
  · obtain ⟨left, text, tree⟩ := trees.parse parsed_ok
    refine ⟨by rwa [Loading.take_cache], ?_⟩
    rw [Loading.take_modules, tree]
    refine List.forall_mem_append.mpr ⟨before, fun home new => ?_⟩
    obtain ⟨body, found, rfl⟩ := Option.map_eq_some_iff.mp (Option.mem_toList.mp new)
    exact ⟨file, text, body, (Option.filter_eq_some_iff.mp found).1, rfl⟩

/-- What loading starts with and what every file preserves holds in the end. -/
theorem Loading.addAll_induction {motive : Loading → Prop}
    (step : ∀ loading, ∀ file ∈ files, ∀ next, motive loading → loading.add file = .ok next →
      motive next)
    (before : motive loading) (added : loading.addAll files = .ok next) : motive next := by
  induction files generalizing loading with
  | nil =>
    cases added
    exact before
  | cons file rest ih =>
    unfold Loading.addAll at added
    split at added
    · cases added
    · next first first_ok =>
      exact ih (fun loading other inRest => step loading other (List.mem_cons_of_mem _ inRest))
        (step loading file (List.mem_cons_self ..) first before first_ok) added

omit [Characters] in
/-- The modules of a program are those that were loaded, up to the kinds of their classes. -/
theorem mem_ofLoading {limits : Limits} {home : LoadedModule}
    (member : home ∈ (ofLoading limits loading).program.modules) :
    ∃ before ∈ loading.modules, home.plain = before.plain := by
  have plain : (ofLoading limits loading).program.modules.map LoadedModule.plain =
      loading.modules.map LoadedModule.plain := settleModules_value ..
  have settled := List.mem_map_of_mem (f := LoadedModule.plain) member
  rw [plain] at settled
  obtain ⟨before, inLoading, same⟩ := List.mem_map.mp settled
  exact ⟨before, inLoading, same.symm⟩

theorem load_isIndexed {limits : Limits} {cache : ParseCache}
    {loaded : Loaded} (trees : cache.HoldsTrees) (loads : load limits cache files = .ok loaded) :
    ∀ home ∈ loaded.program.modules, home.IsIndexed := by
  obtain ⟨loading, added, rfl⟩ := load_eq_ofLoading loads
  obtain ⟨-, all⟩ := Loading.addAll_induction
    (motive := fun loading => loading.cache.HoldsTrees ∧ ∀ home ∈ loading.modules, home.IsIndexed)
    (fun _ _ _ _ before added => Loading.add_isIndexed before.1 before.2 added)
    ⟨trees, by simp⟩ added
  intro home member
  obtain ⟨before, inLoading, same⟩ := mem_ofLoading member
  obtain ⟨file, text, body, tree, indexed⟩ := all before inLoading
  exact ⟨file, text, body, tree, same.trans indexed⟩

end Program

end EnumLookup
