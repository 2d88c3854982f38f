import EnumLookup.Encoding.Declared
import EnumLookup.Proofs.Isolation
import EnumLookup.Proofs.ParseHistory
import EnumLookup.Proofs.Program.Ending

/-!
Files that are skipped. A file that is read and whose text has no UTF-8 form ends the loading. A
text that has no tree, or one with branches nested too deeply, does not: the file is reported, once
for each text, and everything else is loaded as if it were not there. The classes are judged then,
which comes to its end unless the name of a base grows for ever.
-/
namespace EnumLookup

open Declaration Source Text

variable {files reads : List SourceFile} {file : SourceFile} {text path : String}
  {reason : SkipReason}

/-- Why a file is skipped that has a text with a UTF-8 form. -/
def SourceFile.failure? [Characters] (file : SourceFile) : Option SkipReason :=
  file.text.toString?.bind fun text =>
    match parseModule text.toList with
    | .error failure => some (skipReason failure)
    | .ok body => if maxBranchDepth < branchDepth body then some .tooDeepToIndex else none

/-- A file defines a module, or there is a reason why not. -/
theorem SourceFile.failure?_isSome [Characters] (known : file.text.toString? = some text) :
    file.failure?.isSome = file.body?.isNone := by
  rw [failure?, body?, known, Option.bind_some, Option.bind_some, freshTree]
  cases parseModule text.toList with
  | error failure => rfl
  | ok body =>
    by_cases deep : maxBranchDepth < branchDepth body
    · simp [deep, Except.toOption, Option.filter, Nat.not_le.mpr deep]
    · simp [deep, Except.toOption, Option.filter, Nat.not_lt.mp deep]

theorem SourceFile.encodable_of_body? [Characters] (handled : file.body?.isSome) :
    file.text.toString?.isSome := by
  rw [body?] at handled
  cases known : file.text.toString? with
  | none => simp [known] at handled
  | some text => rfl

theorem skipReason_ne (failure : ParseFailure) : skipReason failure ≠ .tooDeepToIndex := by
  cases failure <;> decide

theorem mem_textsOf : text ∈ textsOf files ↔ .ofString text ∈ files.map (·.text) := by
  simp only [textsOf, List.mem_filterMap, List.mem_map]
  constructor
  · rintro ⟨file, member, known⟩
    exact ⟨file, member, SourceText.eq_ofString known⟩
  · rintro ⟨file, member, same⟩
    exact ⟨file, member, by rw [same, SourceText.toString?_ofString]⟩

theorem textsOf_append (files others : List SourceFile) :
    textsOf (files ++ others) = textsOf files ++ textsOf others :=
  List.filterMap_append

namespace ParseCache

theorem textsOfCalls_parses (reads : List SourceFile) :
    textsOfCalls (reads.map .parse) = textsOf reads := by
  induction reads with
  | nil => rfl
  | cons file rest ih => rw [← List.singleton_append, textsOf_append, ← ih]; rfl

/-- After files were parsed a text is new when none of them holds it. -/
theorem isNew_parses : isNew (reads.map .parse) text = true ↔ text ∉ textsOf reads := by
  induction reads using List.reverseRecOn with
  | nil => simp [isNew, textsOf]
  | append_singleton reads file ih =>
    have own : text ∈ textsOf [file] ↔ file.text.toString? = some text := by simp [textsOf]
    rw [List.map_append, List.map_singleton, isNew_parse, Bool.and_eq_true, ih, textsOf_append,
      List.mem_append, own, not_or, and_comm, Bool.not_eq_true', beq_eq_false_iff_ne]

end ParseCache

namespace Program

section

variable [Characters]
variable {limits : Limits} {modules : List LoadedModule} {loading next : Loading}

/-- The files that loading reads when there are some modules. A file is passed over once its module
is defined. -/
def readFrom (modules : List LoadedModule) : List SourceFile → List SourceFile
  | [] => []
  | file :: rest =>
    if modules.any fun loaded => loaded.name == file.module then readFrom modules rest
    else file :: readFrom (withFile modules file) rest

def readOf (files : List SourceFile) : List SourceFile := readFrom [] files

/-- A file of this path is skipped for this reason. Texts that do not parse are reported for the
first of the files that hold them. -/
def Reported (reads : List SourceFile) (path : String) (reason : SkipReason) : Prop :=
  ∃ earlier file later, reads = earlier ++ file :: later ∧ file.path = path ∧
    file.failure? = some reason ∧ (reason = .tooDeepToIndex ∨ file.text ∉ earlier.map (·.text))

theorem reported_append_singleton : Reported (reads ++ [file]) path reason ↔
    Reported reads path reason ∨ (file.path = path ∧ file.failure? = some reason ∧
      (reason = .tooDeepToIndex ∨ file.text ∉ reads.map (·.text))) := by
  constructor
  · rintro ⟨earlier, own, later, split, here, failure, new⟩
    rcases List.eq_nil_or_concat later with rfl | ⟨later, last, rfl⟩
    · obtain ⟨rfl, same⟩ := List.append_inj' split rfl
      obtain ⟨rfl, -⟩ := List.cons.inj same
      exact .inr ⟨here, failure, new⟩
    · have split : reads ++ [file] = (earlier ++ own :: later) ++ [last] := by simp [split]
      obtain ⟨rfl, -⟩ := List.append_inj' split rfl
      exact .inl ⟨earlier, own, later, rfl, here, failure, new⟩
  · rintro (⟨earlier, own, later, rfl, here, failure, new⟩ | ⟨here, failure, new⟩)
    · exact ⟨earlier, own, later ++ [file], by simp, here, failure, new⟩
    · exact ⟨reads, file, [], rfl, here, failure, new⟩

/-- The loading has read these files: what it remembers and what it reported are told by them. -/
structure Loading.Tells (texts : List String) (reads : List SourceFile) (loading : Loading) :
    Prop where
  seen : ∀ text ∈ textsOf reads, text ∈ texts
  remembers : ∃ live, ParseCache.Reflects (reads.map .parse) loading.cache live
  reported : ∀ path reason,
    .skipped path reason ∈ loading.events ↔ Reported reads path reason
  unjudged : ∀ qualname error, .unclassified qualname error ∉ loading.events

namespace Loading.Tells

variable {texts : List String}

theorem start (texts : List String) : Tells texts [] ⟨[], .empty, []⟩ where
  seen text member := by simp [textsOf] at member
  remembers := ⟨[], .start⟩
  reported path reason := by simp [Reported]
  unjudged _ _ := List.not_mem_nil

/-- What is reported of a file that is read. -/
theorem take_reported {past : List ParseCache.Call} {before : ParseCache} {parsed : Parsed}
    (known : file.text.toString? = some text)
    (answers : ParseCache.Answers past file text before parsed) (loading : Loading) :
    .skipped path reason ∈ (loading.take file parsed).events ↔
      .skipped path reason ∈ loading.events ∨ (file.path = path ∧ file.failure? = some reason ∧
        (reason = .tooDeepToIndex ∨ ParseCache.isNew past text = true)) := by
  have events := answers.reported
  have tree := answers.tree
  unfold take
  rw [tree, freshTree, SourceFile.failure?, known, Option.bind_some]
  cases parses : parseModule text.toList with
  | error fails =>
    simp only [parses] at events
    simp only [Except.toOption, List.mem_append, events]
    cases ParseCache.isNew past text with
    | false =>
      simp only [List.not_mem_nil, or_false, Option.some.injEq, Bool.false_eq_true]
      refine (or_iff_left ?_).symm
      rintro ⟨-, rfl, deep⟩
      exact skipReason_ne fails deep
    | true =>
      simp only [List.mem_singleton, Event.skipped.injEq, Option.some.injEq, or_true, and_true]
      rw [eq_comm (a := path), eq_comm (a := reason)]
  | ok body =>
    have silent : parsed.events = [] := by
      rw [events, parses]
      cases ParseCache.isNew past text <;> rfl
    simp only [Except.toOption, silent, List.append_nil]
    by_cases deep : maxBranchDepth < branchDepth body
    · simp only [deep, if_true, List.mem_append, List.mem_singleton, Event.skipped.injEq,
        Option.some.injEq]
      refine or_congr_right ⟨?_, ?_⟩
      · rintro ⟨rfl, rfl⟩
        exact ⟨rfl, rfl, .inl rfl⟩
      · rintro ⟨rfl, rfl, -⟩
        exact ⟨rfl, rfl⟩
    · simp [deep]

/-- Taking in a file judges no class. -/
theorem take_unjudged {past : List ParseCache.Call} {before : ParseCache} {parsed : Parsed}
    (answers : ParseCache.Answers past file text before parsed)
    (unjudged : ∀ qualname error, .unclassified qualname error ∉ loading.events)
    (qualname : String) (error : ResolutionError) :
    .unclassified qualname error ∉ (loading.take file parsed).events := by
  have silent : .unclassified qualname error ∉ parsed.events := by
    rw [answers.reported]
    split
    · simp
    · exact List.not_mem_nil
  have others := List.not_mem_append (unjudged qualname error) silent
  unfold take
  split
  · exact others
  · dsimp only
    split
    · exact List.not_mem_append others (by simp)
    · exact others

/-- A file that is read is remembered, and reported when it is skipped. -/
theorem add (tells : loading.Tells texts reads) (separated : Separated texts)
    (inTexts : text ∈ texts) (known : file.text.toString? = some text)
    (new : loading.knows file.module = false) :
    ∃ next, loading.add file = .ok next ∧ next.modules = withFile loading.modules file ∧
      next.Tells texts (reads ++ [file]) := by
  obtain ⟨live, reflects⟩ := tells.remembers
  have calls := ParseCache.textsOfCalls_parses reads
  obtain ⟨parsed, live, parses, answers, after⟩ :=
    reflects.parse separated (calls ▸ tells.seen) known inTexts
  refine ⟨loading.take file parsed, by simp [Loading.add, new, parses, Except.map], ?_, ?_, ?_, ?_,
    take_unjudged answers tells.unjudged⟩
  · simp only [knows] at new
    simp [withFile, new, take_modules, answers.tree, SourceFile.body?, known]
  · have own : textsOf [file] = [text] := by simp [textsOf, known]
    rw [textsOf_append, own]
    exact List.forall_mem_append.mpr ⟨tells.seen, List.forall_mem_singleton.mpr inTexts⟩
  · rw [take_cache, List.map_append]
    exact ⟨live, after⟩
  · intro path reason
    rw [take_reported known answers, tells.reported, reported_append_singleton,
      ParseCache.isNew_parses, mem_textsOf, SourceText.eq_ofString known]

/-- A file is passed over when its module is defined. -/
theorem pass (tells : loading.Tells texts reads) (known : loading.knows file.module = true) :
    ∃ next, loading.add file = .ok next ∧ next.modules = loading.modules ∧
      next.Tells texts reads := by
  refine ⟨{ loading with events := loading.events ++ [.alreadyLoaded file.path file.module] },
    by rw [Loading.add, if_pos known], rfl, tells.seen, tells.remembers, ?_, ?_⟩
  · simpa using tells.reported
  · simpa using tells.unjudged

end Loading.Tells

theorem withFile_taken (known : loading.knows file.module = true) :
    withFile loading.modules file = loading.modules :=
  if_pos known

theorem readFrom_taken (known : loading.knows file.module = true) (rest : List SourceFile) :
    readFrom loading.modules (file :: rest) = readFrom loading.modules rest :=
  if_pos known

theorem readFrom_new (new : loading.knows file.module = false) (rest : List SourceFile) :
    readFrom loading.modules (file :: rest) =
      file :: readFrom (withFile loading.modules file) rest :=
  if_neg (Bool.eq_false_iff.mp new)

theorem addAll_cons (added : loading.add file = .ok next) (rest : List SourceFile) :
    loading.addAll (file :: rest) = next.addAll rest := by
  simp only [Loading.addAll, added]

namespace Loading.Tells

variable {texts : List String} {earlier later : List SourceFile} {error : EncodeError}

/-- Files are added as long as those that are read have texts with UTF-8 forms. -/
theorem addAll (tells : loading.Tells texts reads) (separated : Separated texts)
    (inTexts : ∀ text ∈ textsOf files, text ∈ texts)
    (encodable : AllEncodable (readFrom loading.modules files)) :
    ∃ next, loading.addAll files = .ok next ∧
      next.modules = files.foldl withFile loading.modules ∧
      next.Tells texts (reads ++ readFrom loading.modules files) := by
  induction files generalizing loading reads with
  | nil => exact ⟨loading, rfl, rfl, by simpa [readFrom] using tells⟩
  | cons file rest ih =>
    rw [← List.singleton_append, textsOf_append, List.forall_mem_append] at inTexts
    rw [List.foldl_cons]
    cases known : loading.knows file.module with
    | true =>
      obtain ⟨middle, added, modules, tells⟩ := tells.pass known
      rw [readFrom_taken known, ← modules] at encodable
      obtain ⟨next, addedRest, result, tells⟩ := ih tells inTexts.2 encodable
      refine ⟨next, by rw [addAll_cons added, addedRest], ?_, ?_⟩
      · rw [result, modules, withFile_taken known]
      · rwa [readFrom_taken known, ← modules]
    | false =>
      rw [readFrom_new known] at encodable
      obtain ⟨text, holds, -⟩ := encodable.text (List.mem_cons_self ..)
      have inTexts' : text ∈ texts := inTexts.1 text (by simp [textsOf, holds])
      obtain ⟨middle, added, modules, tells⟩ := tells.add separated inTexts' holds known
      rw [← modules] at encodable
      obtain ⟨next, addedRest, result, tells⟩ := ih tells inTexts.2
        fun other member => encodable other (List.mem_cons_of_mem _ member)
      refine ⟨next, by rw [addAll_cons added, addedRest], by rw [result, modules], ?_⟩
      rwa [readFrom_new known, ← modules, List.append_cons]

/-- The first file that is read whose text has no UTF-8 form ends the loading. -/
theorem addAll_error (tells : loading.Tells texts reads) (separated : Separated texts)
    (inTexts : ∀ text ∈ textsOf files, text ∈ texts)
    (split : readFrom loading.modules files = earlier ++ file :: later)
    (encodable : AllEncodable earlier) (surrogates : file.text.encodable = .error error) :
    loading.addAll files = .error error := by
  induction files generalizing loading reads earlier with
  | nil => simp [readFrom] at split
  | cons first rest ih =>
    rw [← List.singleton_append, textsOf_append, List.forall_mem_append] at inTexts
    cases known : loading.knows first.module with
    | true =>
      obtain ⟨middle, added, modules, tells⟩ := tells.pass known
      rw [readFrom_taken known, ← modules] at split
      rw [addAll_cons added]
      exact ih tells inTexts.2 split encodable
    | false =>
      rw [readFrom_new known] at split
      rcases earlier with _ | ⟨own, earlier⟩
      · obtain ⟨rfl, -⟩ := List.cons.inj split
        rw [Loading.addAll, Loading.add, known]
        simp [ParseCache.parse, surrogates, Except.map]
      · obtain ⟨rfl, others⟩ := List.cons.inj split
        obtain ⟨text, holds, -⟩ := encodable.text (List.mem_cons_self ..)
        have inTexts' : text ∈ texts := inTexts.1 text (by simp [textsOf, holds])
        obtain ⟨middle, added, modules, tells⟩ := tells.add separated inTexts' holds known
        rw [← modules] at others
        rw [addAll_cons added]
        exact ih tells inTexts.2 others
          fun other member => encodable other (List.mem_cons_of_mem _ member)

end Loading.Tells

theorem modulesOf_handled (files : List SourceFile) :
    modulesOf (files.filter (·.body?.isSome)) = modulesOf files := by
  rw [modulesOf, modulesOf, List.foldl_filter]
  congr 1
  funext modules file
  split
  · rfl
  · next skipped => simp [withFile, Option.not_isSome_iff_eq_none.mp skipped]

/-- Among files that are read, one with the same text as a skipped one is reported. -/
theorem exists_reported (encodable : AllEncodable reads) (member : file ∈ reads)
    (skipped : file.body? = none) :
    ∃ other ∈ reads, other.text = file.text ∧ ∃ reason, Reported reads other.path reason := by
  obtain ⟨text, known⟩ := Option.isSome_iff_exists.mp (encodable file member)
  have fails : file.failure?.isSome := by rw [file.failure?_isSome known, skipped]; rfl
  obtain ⟨reason, failure⟩ := Option.isSome_iff_exists.mp fails
  obtain ⟨before, after, split, first⟩ :=
    List.eq_append_cons_of_mem (List.mem_map_of_mem (f := (·.text)) member)
  obtain ⟨earlier, rest, rfl, rfl, behind⟩ := List.map_eq_append_iff.mp split
  obtain ⟨other, later, rfl, same, rfl⟩ := List.map_eq_cons_iff.mp behind
  refine ⟨other, by simp, same, reason, earlier, other, later, rfl, rfl, ?_, .inr ?_⟩
  · rw [SourceFile.failure?, same, ← SourceFile.failure?, failure]
  · rwa [same]

/-- What loading makes of files whose texts it can handle. Those that it skips are reported, and no
class is left unjudged because a name has no end. The program, and what is remembered about it, are
those of the files that define modules. -/
structure Survives (limits : Limits) (files : List SourceFile) (loaded : Loaded) : Prop where
  program : loaded.program = ⟨limits, (settledOf limits files).value⟩
  skipped : ∀ path reason,
    .skipped path reason ∈ loaded.events ↔ Reported (readOf files) path reason
  warned : ∀ file ∈ readOf files, file.body? = none →
    ∃ other ∈ readOf files, other.text = file.text ∧
      ∃ reason, .skipped other.path reason ∈ loaded.events
  settled : ∀ qualname name, .unclassified qualname (.endless name) ∉ loaded.events
  absent : ∃ other, load limits .empty (files.filter (·.body?.isSome)) = .ok other ∧
    other.program = loaded.program ∧ other.memo = loaded.memo

/-- Loading files whose texts that are read have UTF-8 forms comes to its end. -/
theorem load_tells (limits : Limits) (separated : Separated (textsOf files))
    (encodable : AllEncodable (readOf files)) :
    ∃ loaded, load limits .empty files = .ok loaded ∧
      loaded.program = ⟨limits, (settledOf limits files).value⟩ ∧
      loaded.memo = (settledOf limits files).memo ∧
      (∀ path reason,
        .skipped path reason ∈ loaded.events ↔ Reported (readOf files) path reason) ∧
      ∀ qualname error, .unclassified qualname error ∈ loaded.events →
        (⟨limits, modulesOf files⟩ : Program).Unjudged (.unclassified qualname error) := by
  obtain ⟨loading, added, modules, tells⟩ :=
    (Loading.Tells.start _).addAll separated (fun _ member => member) encodable
  have same : loading.modules = modulesOf files := modules
  refine ⟨ofLoading limits loading, by rw [load, added]; rfl, ?_, ?_, fun path reason => ?_,
    fun qualname error member => ?_⟩
  · simp only [ofLoading, settledOf, same]
  · simp only [ofLoading, settledOf, same]
  · have silent : .skipped path reason ∉
        (settleModules ⟨limits, loading.modules⟩ loading.modules []).events := by
      intro member
      obtain ⟨_, _, _, _, -, -, other⟩ := unjudged_of_settleModules member
      cases other
    rw [ofLoading, List.mem_append, or_iff_left silent, tells.reported]
    rfl
  · rcases List.mem_append.mp member with early | settling
    · exact absurd early (tells.unjudged qualname error)
    · exact same ▸ unjudged_of_settleModules settling

/-- Nothing but a text without a UTF-8 form ends the adding of files. -/
theorem addAll_eq_error {error : EncodeError} (failed : loading.addAll files = .error error) :
    ∃ file ∈ files, file.text.encodable = .error error := by
  induction files generalizing loading with
  | nil => cases failed
  | cons file rest ih =>
    cases added : loading.add file with
    | ok next =>
      rw [addAll_cons added] at failed
      obtain ⟨other, member, surrogates⟩ := ih failed
      exact ⟨other, List.mem_cons_of_mem _ member, surrogates⟩
    | error own =>
      simp only [Loading.addAll, added] at failed
      cases failed
      refine ⟨file, List.mem_cons_self .., ?_⟩
      unfold Loading.add at added
      split at added
      · cases added
      · cases encoded : file.text.encodable with
        | error own => simpa [ParseCache.parse, encoded, Except.map] using added
        | ok text =>
          simp only [ParseCache.parse, encoded] at added
          split at added
          · cases added
          · cases added

theorem load_eq_error {limits : Limits} {cache : ParseCache} {error : EncodeError}
    (failed : load limits cache files = .error error) :
    ∃ file ∈ files, file.text.encodable = .error error := by
  unfold load at failed
  cases added : (⟨[], cache, []⟩ : Loading).addAll files with
  | ok loading =>
    rw [added] at failed
    cases failed
  | error own =>
    rw [added] at failed
    cases failed
    exact addAll_eq_error added

/-- The texts of files never end their loading, but for one: the first text that is read and has no
UTF-8 form. Any other file that cannot be handled is skipped and reported. That the loading comes to
its end rests on the names of bases: where none of them grows for ever, one number of renamings is
enough, whatever more are allowed. -/
theorem load_survives (files : List SourceFile) :
    (∀ limits error, load limits .empty files = .error error →
      ∃ file ∈ files, file.text.encodable = .error error) ∧
    (Separated (textsOf files) →
      (AllEncodable (readOf files) → BasesEnd ⟨.standard, modulesOf files⟩ →
        ∃ enough, ∀ limits : Limits, enough ≤ limits.renamings →
          ∃ loaded, load limits .empty files = .ok loaded ∧ Survives limits files loaded) ∧
      ∀ limits earlier file later error, readOf files = earlier ++ file :: later →
        AllEncodable earlier → file.text.encodable = .error error →
          load limits .empty files = .error error) := by
  refine ⟨fun limits error failed => load_eq_error failed, fun separated =>
    ⟨fun encodable ends => ?_, ?_⟩⟩
  · obtain ⟨enough, answered⟩ := exists_enough_settled ends
    refine ⟨enough, fun limits allowed => ?_⟩
    obtain ⟨loaded, loads, program, memo, skipped, unjudged⟩ :=
      load_tells limits separated encodable
    refine ⟨loaded, loads, program, skipped, fun file member broken => ?_, ?_, ?_⟩
    · obtain ⟨other, isRead, same, reason, reported⟩ := exists_reported encodable member broken
      exact ⟨other, isRead, same, reason, (skipped _ _).mpr reported⟩
    · intro qualname name member
      exact answered limits allowed _ (unjudged _ _ member) qualname name rfl
    · have handled : AllEncodable (files.filter (·.body?.isSome)) := fun file member =>
        SourceFile.encodable_of_body? (List.mem_filter.mp member).2
      have fewer : ∀ text ∈ textsOf (files.filter (·.body?.isSome)), text ∈ textsOf files :=
        fun text member => (List.filter_sublist.filterMap _).subset member
      obtain ⟨other, othersLoad, otherProgram, otherMemo, -⟩ := load_ok limits
        (ParseCache.empty_faithful _) separated handled fewer
      have settled : settledOf limits (files.filter (·.body?.isSome)) = settledOf limits files := by
        rw [settledOf, settledOf, modulesOf_handled]
      exact ⟨other, othersLoad, by rw [otherProgram, settled, program],
        by rw [otherMemo, settled, memo]⟩
  · intro limits earlier file later error split encodable surrogates
    have failed := (Loading.Tells.start _).addAll_error separated (fun _ member => member) split
      encodable surrogates
    rw [load, failed]
    rfl

end

/-- Two files share a text without a tree, the module of a text with a surrogate is taken, and the
base of a class is passed on from another module. -/
def skippedFiles : List SourceFile :=
  [⟨"a.py", "a", false, .ofString "from enum import Enum as E\n"⟩,
    ⟨"b.py", "b", false, .ofString "class (\n"⟩, ⟨"c.py", "c", false, .ofString "class (\n"⟩,
    ⟨"e.py", "e", false, .ofString "from a import E\nclass C(E): 0\n"⟩,
    ⟨"d/a.py", "a", false, ⟨[.surrogate 0]⟩⟩]

theorem skippedFiles_basesEnd : BasesEnd ⟨.standard, modulesOf skippedFiles⟩ := by
  intro name member
  have names : (⟨.standard, modulesOf skippedFiles⟩ : Program).baseNames = ["a.E"] := by
    decide +kernel
  rw [names, List.mem_singleton] at member
  subst member
  refine .inl ⟨1, ?_⟩
  unfold IsFixed
  decide +kernel

theorem load_survives_shared :
    Separated (textsOf skippedFiles) ∧ readOf skippedFiles = skippedFiles.take 4 ∧
      (∃ enough, ∀ limits : Limits, enough ≤ limits.renamings →
        ∃ loaded, load limits .empty skippedFiles = .ok loaded ∧
          Survives limits skippedFiles loaded) ∧
      (load .standard .empty skippedFiles).toOption.map (·.events) =
        some [.skipped "b.py" .unparsable, .alreadyLoaded "d/a.py" "a"] := by
  have separated : Separated (textsOf skippedFiles) := by decide +kernel
  have isRead : readOf skippedFiles = skippedFiles.take 4 := by decide +kernel
  have encodable : AllEncodable (readOf skippedFiles) := by
    rw [isRead]
    decide +kernel
  refine ⟨separated, isRead, ?_, by decide +kernel⟩
  exact ((load_survives skippedFiles).2 separated).1 encodable skippedFiles_basesEnd

/-- A module that imports a name from that very name, for the base of a class. -/
def growingFile : SourceFile :=
  ⟨"m.py", "m", false, .ofString "from m.a import a\nclass C(a): pass\n"⟩

/-- The name of that base grows for ever: it is given up whatever number of renamings is allowed. -/
theorem growing_endless :
    "m.a.a" ∈ (⟨.standard, modulesOf [growingFile]⟩ : Program).baseNames ∧
      ∀ limits : Limits, ∃ name,
        (⟨limits, modulesOf [growingFile]⟩ : Program).canonicalName "m.a.a" =
          .error (.endless name) := by
  refine ⟨by decide +kernel, fun limits => ?_⟩
  have one : (modulesOf [growingFile]).length = 1 := by decide +kernel
  obtain ⟨home, only⟩ := List.length_eq_one_iff.mp one
  have named : (modulesOf [growingFile]).map (·.name) = ["m"] := by decide +kernel
  have bound : (modulesOf [growingFile]).map (·.bindings.lookup "a") = [some "m.a.a"] := by
    decide +kernel
  rw [only] at named bound ⊢
  have forever : ¬ (⟨limits, [home]⟩ : Program).Ends "m.a.a" :=
    not_ends_grown rfl (List.singleton_inj.mp named) (List.singleton_inj.mp bound)
  exact ⟨_, canonicalName_of_goesOn (goesOn_of_not_ends forever _)⟩

def surrogateText : SourceText :=
  ⟨("# coding: raw_unicode_escape\nx = '".toList.map .scalar) ++ .surrogate 0 ::
    "'\n".toList.map .scalar⟩

/-- A text with a surrogate is one that a file can hold. It ends the loading, though the other file
could be loaded without it. -/
theorem load_ended_by_surrogate :
    let file : SourceFile := ⟨"s.py", "s", false, surrogateText⟩
    let other : SourceFile := ⟨"ok.py", "ok", false, .ofString "x = 1\n"⟩
    Encoding.readText? Encoding.codecs (utf8 "# coding: raw_unicode_escape\nx = '\\ud800'\n") =
        some surrogateText ∧
      load .standard .empty [file, other] = .error ⟨34, 34, 0xD800⟩ ∧
      (load .standard .empty [other]).toOption.isSome = true := by
  intro file other
  have surrogates : surrogateText.encodable = .error ⟨34, 34, 0xD800⟩ := by decide +kernel
  have failed : load .standard .empty [file, other] = .error ⟨34, 34, 0xD800⟩ := by
    simp [load, Loading.addAll, Loading.add, Loading.knows, ParseCache.parse, file, surrogates,
      Except.map]
  exact ⟨by decide +kernel, failed, by decide +kernel⟩

end Program

end EnumLookup
