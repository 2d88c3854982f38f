import EnumLookup.ParseCache

/-!
What a cache of parse trees knows. Its entries are the trees that texts have when they are
parsed anew. As long as no two texts share a digest, parsing through the cache gives the tree
of the text, whatever was parsed or dropped before.
-/
namespace EnumLookup

open Source Text

def freshTree [Characters] (text : String) : Option (List Stmt) :=
  (parseModule text.toList).toOption

/-- No two of the texts share a digest. -/
def Separated (texts : List String) : Prop :=
  ∀ s ∈ texts, ∀ t ∈ texts, SourceFile.contentKey s = SourceFile.contentKey t → s = t

instance (texts : List String) : Decidable (Separated texts) :=
  inferInstanceAs (Decidable (∀ s ∈ texts, ∀ t ∈ texts, _ → s = t))

theorem separated_singleton (text : String) : Separated [text] := by
  intro s isText t alsoText _
  rw [List.mem_singleton.mp isText, List.mem_singleton.mp alsoText]

/-- The texts of files, as far as they have a UTF-8 form. -/
def textsOf (files : List SourceFile) : List String := files.filterMap (·.text.toString?)

/-- Every text has a UTF-8 form. -/
def AllEncodable (files : List SourceFile) : Prop :=
  ∀ file ∈ files, file.text.toString?.isSome

instance (files : List SourceFile) : Decidable (AllEncodable files) :=
  inferInstanceAs (Decidable (∀ file ∈ files, file.text.toString?.isSome))

namespace Text.SourceText

variable {source : SourceText} {text : String}

theorem encodable_ok (h : source.toString? = some text) : source.encodable = .ok text := by
  simp [SourceText.encodable, h]

theorem toString?_of_encodable (encodable : source.encodable = .ok text) :
    source.toString? = some text := by
  unfold SourceText.encodable at encodable
  split at encodable
  · next known =>
    cases encodable
    exact known
  · cases encodable

theorem mapM_char?_eq_some {points : List CodePoint} {cs : List Char}
    (known : points.mapM CodePoint.char? = some cs) : points = cs.map .scalar := by
  induction points generalizing cs with
  | nil =>
    cases known
    rfl
  | cons point rest ih =>
    cases point with
    | surrogate offset => simp [List.mapM_cons, CodePoint.char?] at known
    | scalar c =>
      rw [List.mapM_cons] at known
      cases others : rest.mapM CodePoint.char? with
      | none => simp [CodePoint.char?, others] at known
      | some tail =>
        obtain rfl : c :: tail = cs := by simpa [CodePoint.char?, others] using known
        rw [List.map_cons, ih others]

theorem eq_ofString (known : source.toString? = some text) : source = .ofString text := by
  obtain ⟨cs, chars, rfl⟩ := Option.map_eq_some_iff.mp known
  rw [ofString, String.toList_ofList, ofChars, ← mapM_char?_eq_some chars]

end Text.SourceText

theorem AllEncodable.text {files : List SourceFile} (h : AllEncodable files) {file : SourceFile}
    (member : file ∈ files) :
    ∃ text, file.text.toString? = some text ∧ text ∈ textsOf files := by
  obtain ⟨text, known⟩ := Option.isSome_iff_exists.mp (h file member)
  exact ⟨text, known, List.mem_filterMap.mpr ⟨file, member, known⟩⟩

namespace ParseCache

variable [Characters]

/-- Every remembered tree is that of one of the texts, under the digest of the text. -/
def Faithful (texts : List String) (cache : ParseCache) : Prop :=
  ∀ entry ∈ cache.trees, ∃ text ∈ texts, entry = (SourceFile.contentKey text, freshTree text)

theorem empty_faithful (texts : List String) : Faithful texts empty := by
  intro entry member
  simp [empty] at member

theorem learn_tree (cache : ParseCache) (path key text : String) :
    (cache.learn path key text).tree = freshTree text := by
  unfold learn freshTree
  cases parseModule text.toList <;> rfl

theorem learn_trees (cache : ParseCache) (path key text : String) :
    (cache.learn path key text).cache.trees = (key, freshTree text) :: cache.trees := by
  unfold learn freshTree
  cases parseModule text.toList <;> rfl

/-- Reading a remembered tree is the same as parsing: the entry belongs to a text with the same
digest, which is the text itself. -/
theorem Faithful.lookup {texts : List String} {cache : ParseCache} (faithful : Faithful texts cache)
    (separated : Separated texts) {text : String} (seen : text ∈ texts) {tree : Option (List Stmt)}
    (found : cache.trees.lookup (SourceFile.contentKey text) = some tree) :
    tree = freshTree text := by
  obtain ⟨before, after, split, -⟩ := List.lookup_eq_some_iff.mp found
  have member : (SourceFile.contentKey text, tree) ∈ cache.trees := by simp [split]
  obtain ⟨other, otherSeen, same⟩ := faithful _ member
  obtain ⟨sameKey, rfl⟩ := Prod.mk.inj same
  rw [separated text seen other otherSeen sameKey]

/-- Parsing through a faithful cache gives the tree of the text, and leaves a faithful cache. -/
theorem Faithful.parse {texts : List String} {cache : ParseCache} (faithful : Faithful texts cache)
    (separated : Separated texts) {file : SourceFile} {text : String}
    (known : file.text.toString? = some text) (seen : text ∈ texts) :
    ∃ parsed, cache.parse file = .ok parsed ∧ parsed.tree = freshTree text ∧
      Faithful texts parsed.cache := by
  simp only [ParseCache.parse, SourceText.encodable_ok known]
  cases found : cache.trees.lookup (SourceFile.contentKey text) with
  | some tree => exact ⟨_, rfl, faithful.lookup separated seen found, faithful⟩
  | none =>
    refine ⟨_, rfl, learn_tree .., ?_⟩
    intro entry member
    rw [learn_trees] at member
    rcases List.mem_cons.mp member with rfl | old
    · exact ⟨text, seen, rfl⟩
    · exact faithful entry old

omit [Characters] in
theorem contentKeys_ok {files : List SourceFile} (encodable : AllEncodable files) :
    ∃ keys, contentKeys files = .ok keys := by
  induction files with
  | nil => exact ⟨[], rfl⟩
  | cons file rest ih =>
    obtain ⟨text, known, -⟩ := encodable.text (List.mem_cons_self ..)
    obtain ⟨keys, rest_ok⟩ := ih fun other member => encodable other (List.mem_cons_of_mem _ member)
    exact ⟨_, by simp [contentKeys, SourceText.encodable_ok known, rest_ok, Except.map]; rfl⟩

/-- Dropping trees keeps a cache faithful. -/
theorem Faithful.retain {texts : List String} {cache : ParseCache} (faithful : Faithful texts cache)
    {files : List SourceFile} (encodable : AllEncodable files) :
    ∃ retained, cache.retain files = .ok retained ∧ Faithful texts retained := by
  obtain ⟨keys, keys_ok⟩ := contentKeys_ok encodable
  refine ⟨_, by simp only [ParseCache.retain, keys_ok, Except.map]; rfl, ?_⟩
  intro entry member
  exact faithful entry ((List.mem_filter.mp member).1)

end ParseCache

end EnumLookup
