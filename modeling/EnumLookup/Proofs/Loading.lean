import EnumLookup.Program.Load
import EnumLookup.Proofs.ParseTrees

/-!
What files load to. The modules follow from the files alone: a file adds its module unless the
name is taken or the file has no tree. What a cache remembers changes none of them.
-/
namespace EnumLookup

open Declaration Source Text

/-- An outcome of which something holds is not an error. -/
theorem exists_ok_of_any {ε α : Type} {outcome : Except ε α} {holds : α → Bool}
    (checked : outcome.toOption.any holds = true) : ∃ a, outcome = .ok a ∧ holds a = true := by
  cases outcome with
  | error error => cases checked
  | ok a => exact ⟨a, rfl, checked⟩

/-- The tree that loading goes by: that of the text, unless its branches are nested too deeply. -/
def SourceFile.body? [Characters] (file : SourceFile) : Option (List Stmt) :=
  (file.text.toString?.bind freshTree).filter fun body => branchDepth body ≤ maxBranchDepth

namespace Program

/-- The modules with the one that a file defines. A name that is taken stays with its module. -/
def withFile [Characters] (modules : List LoadedModule) (file : SourceFile) : List LoadedModule :=
  if modules.any fun loaded => loaded.name == file.module then modules
  else modules ++ (file.body?.map (indexModule file)).toList

def modulesOf [Characters] (files : List SourceFile) : List LoadedModule := files.foldl withFile []

namespace Loading

variable {texts : List String} {loading : Loading}

theorem take_modules (loading : Loading) (file : SourceFile) (parsed : Parsed) :
    (loading.take file parsed).modules = loading.modules ++
      ((parsed.tree.filter fun body => branchDepth body ≤ maxBranchDepth).map
        (indexModule file)).toList := by
  unfold take
  cases parsed.tree with
  | none => simp
  | some body =>
    by_cases deep : maxBranchDepth < branchDepth body
    · simp [deep, Option.filter, Nat.not_le.mpr deep]
    · simp [deep, Option.filter, Nat.not_lt.mp deep]

theorem take_cache (loading : Loading) (file : SourceFile) (parsed : Parsed) :
    (loading.take file parsed).cache = parsed.cache := by
  unfold take
  cases parsed.tree with
  | none => rfl
  | some body =>
    dsimp only
    split <;> rfl

/-- A file is passed over, or its tree is taken in. -/
theorem add_cases [Characters] {next : Loading} {file : SourceFile}
    (added : loading.add file = .ok next) :
    (loading.knows file.module = true ∧ next.modules = loading.modules ∧
      next.cache = loading.cache) ∨
    (loading.knows file.module = false ∧ ∃ parsed, loading.cache.parse file = .ok parsed ∧
      next = loading.take file parsed) := by
  unfold add at added
  split at added
  · next known =>
    cases added
    exact .inl ⟨known, rfl, rfl⟩
  · next new =>
    cases parsed_ok : loading.cache.parse file with
    | error error =>
      rw [parsed_ok] at added
      cases added
    | ok parsed =>
      rw [parsed_ok] at added
      cases added
      exact .inr ⟨Bool.eq_false_iff.mpr new, parsed, rfl, rfl⟩

/-- Adding a file admits its module, through any faithful cache. -/
theorem add_ok [Characters] (faithful : loading.cache.Faithful texts) (separated : Separated texts)
    {file : SourceFile} {text : String} (known : file.text.toString? = some text)
    (seen : text ∈ texts) :
    ∃ next, loading.add file = .ok next ∧ next.modules = withFile loading.modules file ∧
      next.cache.Faithful texts := by
  by_cases taken : loading.knows file.module = true
  · refine ⟨{ loading with events := loading.events ++ [.alreadyLoaded file.path file.module] },
      by simp [add, taken], ?_, faithful⟩
    simp only [knows] at taken
    simp [withFile, taken]
  · obtain ⟨parsed, parsed_ok, tree, next_faithful⟩ := faithful.parse separated known seen
    refine ⟨loading.take file parsed, ?_, ?_, ?_⟩
    · simp [add, taken, parsed_ok, Except.map]
    · simp only [knows] at taken
      simp [withFile, taken, take_modules, tree, SourceFile.body?, known]
    · simpa only [take_cache] using next_faithful

/-- Adding files one after another folds `withFile` over them. -/
theorem addAll_ok [Characters] (faithful : loading.cache.Faithful texts)
    (separated : Separated texts) {files : List SourceFile} (encodable : AllEncodable files)
    (seen : ∀ text ∈ textsOf files, text ∈ texts) :
    ∃ next, loading.addAll files = .ok next ∧ next.modules = files.foldl withFile loading.modules ∧
      next.cache.Faithful texts := by
  induction files generalizing loading with
  | nil => exact ⟨loading, rfl, rfl, faithful⟩
  | cons file rest ih =>
    obtain ⟨text, known, member⟩ := encodable.text (List.mem_cons_self ..)
    obtain ⟨first, first_ok, first_modules, first_faithful⟩ :=
      add_ok faithful separated known (seen text member)
    have rest_encodable : AllEncodable rest :=
      fun other inRest => encodable other (List.mem_cons_of_mem _ inRest)
    have rest_seen : ∀ text ∈ textsOf rest, text ∈ texts := by
      intro other inRest
      obtain ⟨origin, inFiles, has⟩ := List.mem_filterMap.mp inRest
      exact seen other (List.mem_filterMap.mpr ⟨origin, List.mem_cons_of_mem _ inFiles, has⟩)
    obtain ⟨next, next_ok, next_modules, next_faithful⟩ :=
      ih first_faithful rest_encodable rest_seen
    refine ⟨next, by simp [addAll, first_ok, next_ok], ?_, next_faithful⟩
    rw [next_modules, first_modules, List.foldl_cons]

end Loading

/-- The modules of files with the kinds of their classes settled, and what is remembered then. -/
def settledOf [Characters] (limits : Limits) (files : List SourceFile) :
    Settled (List LoadedModule) :=
  settleModules ⟨limits, modulesOf files⟩ (modulesOf files) []

/-- Loading through a faithful cache makes of the files the program that they make by themselves. -/
theorem load_ok [Characters] {texts : List String} (limits : Limits) {cache : ParseCache}
    (faithful : cache.Faithful texts) (separated : Separated texts) {files : List SourceFile}
    (encodable : AllEncodable files) (seen : ∀ text ∈ textsOf files, text ∈ texts) :
    ∃ loaded, load limits cache files = .ok loaded ∧
      loaded.program = ⟨limits, (settledOf limits files).value⟩ ∧
      loaded.memo = (settledOf limits files).memo ∧ loaded.cache.Faithful texts := by
  have start : (⟨[], cache, []⟩ : Loading).cache.Faithful texts := faithful
  obtain ⟨loading, loading_ok, modules, next_faithful⟩ :=
    Loading.addAll_ok start separated encodable seen
  have same : loading.modules = modulesOf files := modules
  refine ⟨ofLoading limits loading, by simp [load, loading_ok, Except.map], ?_, ?_, next_faithful⟩
  · simp only [ofLoading, settledOf, same]
  · simp only [ofLoading, settledOf, same]

end Program

end EnumLookup
