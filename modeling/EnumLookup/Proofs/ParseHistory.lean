import EnumLookup.Proofs.ParseTrees
import Mathlib.Data.List.Induction
import Mathlib.Data.List.Nodup

/-!
The history of a cache of parse trees. What a cache remembers is told by the calls that it had: the
texts that were parsed, and that were among the files of every call to keep some since then. So a
text is parsed anew exactly when it is new, and reported then if it has no tree.
-/
namespace EnumLookup

open Source Text

namespace ParseCache

inductive Call where
  | parse (file : SourceFile)
  | retain (files : List SourceFile)

namespace Call

def files : Call → List SourceFile
  | parse file => [file]
  | retain files => files

def isParse : Call → Bool
  | parse _ => true
  | retain _ => false

def parses (text : String) : Call → Bool
  | parse file => file.text.toString? == some text
  | retain _ => false

/-- Whether the call drops a text: it keeps the trees of files that do not hold it. -/
def drops (text : String) : Call → Bool
  | parse _ => false
  | retain files => !(textsOf files).contains text

end Call

def after [Characters] (cache : ParseCache) : Call → Except EncodeError ParseCache
  | .parse file => (cache.parse file).map Parsed.cache
  | .retain files => cache.retain files

def afterAll [Characters] (cache : ParseCache) (calls : List Call) :
    Except EncodeError ParseCache :=
  calls.foldlM after cache

def textsOfCalls (calls : List Call) : List String := calls.flatMap fun call => textsOf call.files

/-- The calls since a text was parsed last, the latest first; all of them when it never was. -/
def sinceParsed (past : List Call) (text : String) : List Call :=
  past.reverse.takeWhile fun call => !call.parses text

/-- After some calls a text is new when it was never parsed, or was dropped since it was parsed
last. -/
def isNew (past : List Call) (text : String) : Bool :=
  !past.any (·.parses text) || (sinceParsed past text).any (·.drops text)

variable {past : List Call} {file : SourceFile} {files : List SourceFile} {text : String}
  {live : List String} {cache : ParseCache}

theorem isNew_parse : isNew (past ++ [.parse file]) text =
    (!(file.text.toString? == some text) && isNew past text) := by
  by_cases own : (file.text.toString? == some text) = true
  · simp [isNew, sinceParsed, Call.parses, own]
  · simp [isNew, sinceParsed, Call.parses, Call.drops, own]

theorem isNew_retain : isNew (past ++ [.retain files]) text =
    (isNew past text || !(textsOf files).contains text) := by
  by_cases kept : text ∈ textsOf files
  · simp [isNew, sinceParsed, Call.parses, Call.drops, kept]
  · simp [isNew, sinceParsed, Call.parses, Call.drops, kept]

theorem parsed_of_known (known : isNew past text = false) : text ∈ textsOfCalls past := by
  simp only [isNew, Bool.or_eq_false_iff, Bool.not_eq_false'] at known
  obtain ⟨call, member, parses⟩ := List.any_eq_true.mp known.1
  cases call with
  | retain files => cases parses
  | parse file =>
    refine List.mem_flatMap.mpr ⟨.parse file, member, ?_⟩
    exact List.mem_filterMap.mpr ⟨file, List.mem_cons_self .., beq_iff_eq.mp parses⟩

section

variable [Characters]

def entry (text : String) : String × Option (List Stmt) :=
  (SourceFile.contentKey text, freshTree text)

theorem lookup_entries (apart : ∀ other ∈ live,
      SourceFile.contentKey other = SourceFile.contentKey text → other = text) :
    (live.map entry).lookup (SourceFile.contentKey text) =
      if text ∈ live then some (freshTree text) else none := by
  induction live with
  | nil => rfl
  | cons first rest ih =>
    obtain ⟨own, others⟩ := List.forall_mem_cons.mp apart
    by_cases same : SourceFile.contentKey text = SourceFile.contentKey first
    · obtain rfl := own same.symm
      simp [entry]
    · have different : text ≠ first := fun equal => same (congrArg _ equal)
      rw [List.map_cons, entry, List.lookup_cons, beq_false_of_ne same, ih others]
      simp [different]

theorem filter_entries {keys : List String} (texts : List String)
    (made : keys = texts.map SourceFile.contentKey)
    (apart : ∀ other ∈ live, ∀ text ∈ texts,
      SourceFile.contentKey other = SourceFile.contentKey text → other = text) :
    (live.map entry).filter (fun entry => keys.contains entry.1) =
      (live.filter fun other => texts.contains other).map entry := by
  rw [List.filter_map]
  congr 1
  refine List.filter_congr fun other member => ?_
  rw [Bool.eq_iff_iff]
  simp only [Function.comp_apply, entry, List.contains_iff_mem, made, List.mem_map]
  constructor
  · rintro ⟨text, inTexts, same⟩
    rwa [apart other member text inTexts same.symm]
  · exact fun inTexts => ⟨other, inTexts, rfl⟩

omit [Characters] in
theorem contentKeys_eq (encodable : AllEncodable files) :
    contentKeys files = .ok ((textsOf files).map SourceFile.contentKey) := by
  induction files with
  | nil => rfl
  | cons file rest ih =>
    obtain ⟨text, known, -⟩ := encodable.text (List.mem_cons_self ..)
    have others := ih fun other member => encodable other (List.mem_cons_of_mem _ member)
    simp [contentKeys, textsOf, SourceText.encodable_ok known, known, others, Except.map]

/-- The cache holds the trees of these texts, which are those that are not new after the calls, and
counts every call to parse. -/
structure Reflects (past : List Call) (cache : ParseCache) (live : List String) : Prop where
  trees : cache.trees = live.map entry
  once : live.Nodup
  known : ∀ text, text ∈ live ↔ isNew past text = false
  counted : cache.hits + cache.misses = past.countP Call.isParse

/-- How a cache answers to a call to parse, after some calls. The tree is that of the text. The call
is a miss just when the text is new, and it is reported just when a new text has no tree. -/
structure Answers (past : List Call) (file : SourceFile) (text : String) (before : ParseCache)
    (parsed : Parsed) : Prop where
  tree : parsed.tree = freshTree text
  counts : (parsed.cache.hits, parsed.cache.misses) =
    if isNew past text then (before.hits, before.misses + 1) else (before.hits + 1, before.misses)
  reported : parsed.events =
    match isNew past text, parseModule text.toList with
    | true, .error failure => [.skipped file.path (skipReason failure)]
    | _, _ => []

namespace Reflects

theorem start : Reflects [] empty [] where
  trees := rfl
  once := .nil
  known text := by simp [isNew]
  counted := rfl

variable {texts : List String}

/-- Texts that the cache holds are told from another one by their digests. -/
theorem apart (reflects : Reflects past cache live) (separated : Separated texts)
    (seen : ∀ text ∈ textsOfCalls past, text ∈ texts) {text : String} (inTexts : text ∈ texts) :
    ∀ other ∈ live, SourceFile.contentKey other = SourceFile.contentKey text → other = text :=
  fun other member =>
    separated other (seen other (parsed_of_known ((reflects.known other).mp member))) text inTexts

theorem parse (reflects : Reflects past cache live) (separated : Separated texts)
    (seen : ∀ text ∈ textsOfCalls past, text ∈ texts) (known : file.text.toString? = some text)
    (inTexts : text ∈ texts) :
    ∃ parsed live, cache.parse file = .ok parsed ∧ Answers past file text cache parsed ∧
      Reflects (past ++ [.parse file]) parsed.cache live := by
  have found := lookup_entries (reflects.apart separated seen inTexts)
  rw [← reflects.trees] at found
  have own (other : String) : (file.text.toString? == some other) = decide (text = other) := by
    rw [known, Bool.eq_iff_iff]
    simp
  have counted : ([Call.parse file].countP Call.isParse) = 1 := rfl
  simp only [ParseCache.parse, SourceText.encodable_ok known]
  by_cases held : text ∈ live
  · have old := (reflects.known text).mp held
    rw [found, if_pos held]
    refine ⟨_, live, rfl, ⟨rfl, by rw [old]; rfl, by rw [old]⟩, reflects.trees, reflects.once,
      fun other => ?_, ?_⟩
    · rw [isNew_parse, own, reflects.known]
      by_cases same : text = other
      · simp [← same, old]
      · simp [same]
    · rw [List.countP_append, counted, ← reflects.counted]
      exact Nat.add_right_comm ..
  · have new : isNew past text = true := by
      rwa [reflects.known, Bool.not_eq_false] at held
    rw [found, if_neg held]
    refine ⟨_, text :: live, rfl, ⟨learn_tree .., ?_, ?_⟩, ?_, ?_, fun other => ?_, ?_⟩
    · rw [new]
      unfold learn
      cases parseModule text.toList <;> rfl
    · rw [new]
      unfold learn
      cases parseModule text.toList <;> rfl
    · rw [learn_trees, reflects.trees]
      rfl
    · exact List.nodup_cons.mpr ⟨held, reflects.once⟩
    · rw [isNew_parse, own, List.mem_cons, reflects.known]
      by_cases same : text = other
      · simp [same]
      · simp [same, Ne.symm same]
    · rw [List.countP_append, counted, ← reflects.counted]
      unfold learn
      cases parseModule text.toList <;> exact (Nat.add_assoc ..).symm

theorem retain (reflects : Reflects past cache live) (separated : Separated texts)
    (seen : ∀ text ∈ textsOfCalls past, text ∈ texts) (encodable : AllEncodable files)
    (inTexts : ∀ text ∈ textsOf files, text ∈ texts) :
    ∃ retained live, cache.retain files = .ok retained ∧
      Reflects (past ++ [.retain files]) retained live := by
  have kept := filter_entries (textsOf files) rfl fun other member text inFiles =>
    reflects.apart separated seen (inTexts text inFiles) other member
  have retained := congrArg (Except.map fun keys => { cache with
    trees := cache.trees.filter fun entry => keys.contains entry.1 }) (contentKeys_eq encodable)
  refine ⟨_, live.filter fun text => (textsOf files).contains text, retained, ?_, ?_, ?_, ?_⟩
  · rw [← kept, ← reflects.trees]
  · exact reflects.once.filter _
  · intro text
    rw [isNew_retain, List.mem_filter, reflects.known, Bool.or_eq_false_iff, Bool.not_eq_false']
  · rw [List.countP_append, ← reflects.counted]
    rfl

end Reflects

theorem afterAll_append {call : Call} {before : ParseCache}
    (ran : cache.afterAll past = .ok before) :
    cache.afterAll (past ++ [call]) = before.after call := by
  rw [afterAll] at ran ⊢
  rw [List.foldlM_append, ran]
  cases last : before.after call with
  | error error => simp [bind, Except.bind, last]
  | ok next => simp [bind, Except.bind, last, pure, Except.pure]

/-- Every call has an answer, and what the cache holds in the end is told by the calls. -/
theorem history_reflects {texts : List String} {calls : List Call}
    (encodable : ∀ call ∈ calls, AllEncodable call.files) (separated : Separated texts)
    (seen : ∀ text ∈ textsOfCalls calls, text ∈ texts) :
    ∃ cache live, empty.afterAll calls = .ok cache ∧ Reflects calls cache live := by
  induction calls using List.reverseRecOn with
  | nil => exact ⟨empty, [], rfl, .start⟩
  | append_singleton past call ih =>
    have isCall : call ∈ past ++ [call] := List.mem_append_right _ (List.mem_cons_self ..)
    have inCall : ∀ text ∈ textsOf call.files, text ∈ texts := fun text member =>
      seen text (List.mem_flatMap.mpr ⟨call, isCall, member⟩)
    have inPast : ∀ text ∈ textsOfCalls past, text ∈ texts := by
      intro text member
      obtain ⟨other, inPast, holds⟩ := List.mem_flatMap.mp member
      exact seen text (List.mem_flatMap.mpr ⟨other, List.mem_append_left _ inPast, holds⟩)
    have own := encodable call isCall
    obtain ⟨before, live, ran, reflects⟩ :=
      ih (fun other member => encodable other (List.mem_append_left _ member)) inPast
    rw [afterAll_append ran]
    cases call with
    | parse file =>
      obtain ⟨text, known, member⟩ := own.text (List.mem_cons_self ..)
      obtain ⟨parsed, live, parsed_ok, -, next⟩ :=
        reflects.parse separated inPast known (inCall text member)
      exact ⟨parsed.cache, live, by rw [after, parsed_ok]; rfl, next⟩
    | retain files =>
      obtain ⟨retained, live, retained_ok, next⟩ := reflects.retain separated inPast own inCall
      exact ⟨retained, live, retained_ok, next⟩

/-- What the calls that a cache had say of it. Each call to parse is counted, the texts that are not
new make up its size, and each call to parse is answered as the calls before it have it. -/
structure Accounts (calls : List Call) (cache : ParseCache) : Prop where
  counted : cache.hits + cache.misses = calls.countP Call.isParse
  size : ∃ live : List String, live.Nodup ∧ (∀ text, text ∈ live ↔ isNew calls text = false) ∧
    cache.size = live.length
  answers : ∀ past file later, calls = past ++ .parse file :: later → ∃ text before parsed,
    file.text.toString? = some text ∧ empty.afterAll past = .ok before ∧
    before.parse file = .ok parsed ∧ Answers past file text before parsed

/-- Whatever calls a cache has, they account for its answers, its counts and its size. The texts
have UTF-8 forms, and no two of them share a digest. -/
theorem history_accounts (calls : List Call)
    (encodable : ∀ call ∈ calls, AllEncodable call.files)
    (separated : Separated (textsOfCalls calls)) :
    ∃ cache, empty.afterAll calls = .ok cache ∧ Accounts calls cache := by
  obtain ⟨cache, live, ran, reflects⟩ :=
    history_reflects encodable separated fun text member => member
  refine ⟨cache, ran, reflects.counted, ⟨live, reflects.once, reflects.known, ?_⟩, ?_⟩
  · rw [size, reflects.trees, List.length_map]
  · rintro past file later rfl
    have inPast : ∀ text ∈ textsOfCalls past,
        text ∈ textsOfCalls (past ++ .parse file :: later) := by
      intro text member
      rw [textsOfCalls, List.flatMap_append]
      exact List.mem_append_left _ member
    obtain ⟨text, known, member⟩ := (encodable (.parse file) (by simp)).text (List.mem_cons_self ..)
    have inTexts : text ∈ textsOfCalls (past ++ .parse file :: later) :=
      List.mem_flatMap.mpr ⟨.parse file, by simp, member⟩
    obtain ⟨before, held, ranBefore, reflectsBefore⟩ := history_reflects
      (fun call inside => encodable call (List.mem_append_left _ inside)) separated inPast
    obtain ⟨parsed, -, parsed_ok, answers, -⟩ :=
      reflectsBefore.parse separated inPast known inTexts
    exact ⟨text, before, parsed, known, ranBefore, parsed_ok, answers⟩

end

def sampleCalls : List Call :=
  let file (path text : String) : SourceFile := ⟨path, "m", false, .ofString text⟩
  [.parse (file "a.py" "class ("), .parse (file "b.py" "class ("),
    .retain [file "c.py" "x = 1\n"], .parse (file "b.py" "class ("),
    .parse (file "c.py" "x = 1\n")]

/-- The text is new, known, and new again, and two texts are known in the end. -/
theorem history_accounts_dropped :
    (∀ call ∈ sampleCalls, AllEncodable call.files) ∧ Separated (textsOfCalls sampleCalls) ∧
      [1, 2, 3].map (fun count => isNew (sampleCalls.take count) "class (") =
        [false, false, true] ∧
      ∃ cache, empty.afterAll sampleCalls = .ok cache ∧ cache.hits + cache.misses = 4 ∧
        Accounts sampleCalls cache := by
  have encodable : ∀ call ∈ sampleCalls, AllEncodable call.files := by decide +kernel
  have separated : Separated (textsOfCalls sampleCalls) := by decide +kernel
  obtain ⟨cache, ran, accounts⟩ := history_accounts sampleCalls encodable separated
  exact ⟨encodable, separated, by decide +kernel, cache, ran, accounts.counted, accounts⟩

end ParseCache

end EnumLookup
