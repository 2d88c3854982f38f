import EnumLookup.Proofs.ParseTrees
import EnumLookup.Proofs.Text.Utf8

/-!
The bytes that stand for a source set. A zero closes every path and every text, and the bytes can be
cut there again. So they tell two source sets apart, unless a text holds a zero itself, and behind
it what the other set says of its next file.
-/
namespace EnumLookup

open Text

namespace SourceFile

variable {file other : SourceFile} {files others : List SourceFile} {bytes otherBytes : List UInt8}
  {text : String}

def sources (files : List SourceFile) : List (String × SourceText) :=
  files.map fun file => (file.path, file.text)

/-- The bytes between the zeros: the path, and the text as its own zeros cut it. -/
def pieces (file : SourceFile) : List (List UInt8) :=
  utf8 file.path :: (file.text.toString?.elim [] fun text => (utf8 text).splitOn 0)

/-- Files with paths without zeros, and with texts that have a UTF-8 form. -/
structure Framable (files : List SourceFile) : Prop where
  paths : ∀ file ∈ files, '\x00' ∉ file.path.toList
  encodable : AllEncodable files

/-- Two source sets are the same up to a file of one path. Where its text ends in the first set, it
goes on in the second one, with a zero and the path of the next file of the first set. -/
def Clash (files others : List SourceFile) : Prop :=
  ∃ common path text next rest longer more,
    sources files = common ++ (path, .ofString text) :: next :: rest ∧
    sources others = common ++ (path, .ofString longer) :: more ∧
    utf8 text ++ 0 :: utf8 next.1 <+: utf8 longer

/-- How far the bytes of two source sets tell the sets apart. -/
structure Separates (files others : List SourceFile) (bytes otherBytes : List UInt8) : Prop where
  exact : bytes = otherBytes ↔ files.flatMap pieces = others.flatMap pieces
  same : bytes = otherBytes →
    sources files = sources others ∨ Clash files others ∨ Clash others files
  zeroFree : (∀ text ∈ textsOf files ++ textsOf others, '\x00' ∉ text.toList) →
    bytes = otherBytes → sources files = sources others

theorem Framable.cons (framable : Framable (file :: files)) :
    (∃ text, file.text.toString? = some text) ∧ 0 ∉ utf8 file.path ∧ Framable files := by
  obtain ⟨text, known, -⟩ := framable.encodable.text (List.mem_cons_self ..)
  have free := framable.paths file (List.mem_cons_self ..)
  exact ⟨⟨text, known⟩, mt Encoding.zero_mem_utf8.mp free,
    fun other member => framable.paths other (List.mem_cons_of_mem _ member),
    fun other member => framable.encodable other (List.mem_cons_of_mem _ member)⟩

theorem frame_pieces (known : file.text.toString? = some text) (free : 0 ∉ utf8 file.path) :
    ∃ bytes, file.frame = .ok bytes ∧
      ∀ rest, (bytes ++ rest).splitOn 0 = file.pieces ++ rest.splitOn 0 := by
  refine ⟨_, by rw [frame, SourceText.encodable_ok known]; rfl, fun rest => ?_⟩
  rw [pieces, known, Option.elim_some, List.append_assoc, List.cons_append, List.append_assoc,
    List.singleton_append, List.splitOn_append_cons_self_of_not_mem free,
    List.splitOn_append_cons_self, List.cons_append]

/-- The bytes of a source set, cut at the zeros, are the pieces of the files. -/
theorem frames_pieces (framable : Framable files) :
    ∃ bytes, frames files = .ok bytes ∧ bytes.splitOn 0 = files.flatMap pieces ++ [[]] := by
  induction files with
  | nil => exact ⟨[], rfl, rfl⟩
  | cons file rest ih =>
    obtain ⟨⟨text, known⟩, free, framableRest⟩ := framable.cons
    obtain ⟨others, framed, cut⟩ := ih framableRest
    obtain ⟨own, framedOwn, cutOwn⟩ := frame_pieces known free
    refine ⟨own ++ others, by rw [frames, framedOwn, framed]; rfl, ?_⟩
    rw [cutOwn, cut, List.flatMap_cons, List.append_assoc]

theorem encodable_of_frames (framed : frames files = .ok bytes) : AllEncodable files := by
  induction files generalizing bytes with
  | nil => exact fun file member => absurd member List.not_mem_nil
  | cons file rest ih =>
    cases encodable : file.text.encodable with
    | error error => simp [frames, frame, encodable, Except.map] at framed
    | ok text =>
      cases framedRest : frames rest with
      | error error => simp [frames, frame, encodable, framedRest, Except.map] at framed
      | ok others =>
        refine List.forall_mem_cons.mpr ⟨?_, ih framedRest⟩
        rw [SourceText.toString?_of_encodable encodable]
        rfl

theorem splitOn_injective {a b : List UInt8} (same : a.splitOn 0 = b.splitOn 0) : a = b :=
  calc
    a = [0].intercalate (a.splitOn 0) := (List.intercalate_splitOn 0).symm
    _ = [0].intercalate (b.splitOn 0) := by rw [same]
    _ = b := List.intercalate_splitOn 0

theorem intercalate_append {xs ys : List (List UInt8)} (some : xs ≠ []) (more : ys ≠ []) :
    [0].intercalate (xs ++ ys) = [0].intercalate xs ++ 0 :: [0].intercalate ys := by
  obtain ⟨next, behind, rfl⟩ := List.exists_cons_of_ne_nil more
  induction xs with
  | nil => exact absurd rfl some
  | cons first rest ih =>
    cases rest with
    | nil => simp [List.intercalate_cons_cons]
    | cons second rest =>
      have shorter := ih (List.cons_ne_nil _ _)
      rw [List.cons_append] at shorter
      simp [List.intercalate_cons_cons, shorter]

/-- Bytes that are cut into the pieces of others and more go on behind these others. -/
theorem prefix_of_splitOn {a b piece : List UInt8} {more : List (List UInt8)}
    (cut : b.splitOn 0 = a.splitOn 0 ++ piece :: more) : a ++ 0 :: piece <+: b := by
  have whole : [0].intercalate (b.splitOn 0) = b := List.intercalate_splitOn 0
  rw [← whole, cut, intercalate_append (List.splitOn_ne_nil _ _) (List.cons_ne_nil _ _),
    List.intercalate_splitOn]
  cases more with
  | nil => exact ⟨[], by rw [List.append_nil, List.intercalate_singleton]⟩
  | cons next more =>
    rw [List.intercalate_cons_cons]
    simp

theorem Clash.cons (same : (file.path, file.text) = (other.path, other.text))
    (clash : Clash files others) : Clash (file :: files) (other :: others) := by
  obtain ⟨common, path, text, next, rest, longer, more, first, second, goesOn⟩ := clash
  refine ⟨(file.path, file.text) :: common, path, text, next, rest, longer, more, ?_, ?_, goesOn⟩
  · rw [sources, List.map_cons, ← sources, first, List.cons_append]
  · rw [sources, List.map_cons, ← sources, second, List.cons_append, same]

/-- A text that is cut as another one and more clashes with it. -/
theorem clash_of_splitOn {longer : String} {extra behind : List (List UInt8)}
    (samePath : file.path = other.path) (known : file.text.toString? = some text)
    (alsoKnown : other.text.toString? = some longer) (some : extra ≠ [])
    (cut : (utf8 longer).splitOn 0 = (utf8 text).splitOn 0 ++ extra)
    (goesOn : files.flatMap pieces = extra ++ behind) :
    Clash (file :: files) (other :: others) := by
  obtain ⟨piece, more, rfl⟩ := List.exists_cons_of_ne_nil some
  cases files with
  | nil => simp at goesOn
  | cons next rest =>
    rw [List.flatMap_cons, pieces, List.cons_append, List.cons_append] at goesOn
    obtain ⟨rfl, -⟩ := List.cons.inj goesOn
    refine ⟨[], file.path, text, (next.path, next.text), sources rest, longer, sources others, ?_,
      ?_, prefix_of_splitOn cut⟩
    · rw [← SourceText.eq_ofString known]
      rfl
    · rw [← SourceText.eq_ofString alsoKnown, samePath]
      rfl

/-- Source sets that are cut into the same pieces are the same, or clash. -/
theorem sources_of_pieces (framable : Framable files) (alsoFramable : Framable others)
    (same : files.flatMap pieces = others.flatMap pieces) :
    sources files = sources others ∨ Clash files others ∨ Clash others files := by
  induction files generalizing others with
  | nil =>
    cases others with
    | nil => exact .inl rfl
    | cons other others => simp [pieces] at same
  | cons file files ih =>
    cases others with
    | nil => simp [pieces] at same
    | cons other others =>
      obtain ⟨⟨text, known⟩, -, framable⟩ := framable.cons
      obtain ⟨⟨longer, alsoKnown⟩, -, alsoFramable⟩ := alsoFramable.cons
      rw [List.flatMap_cons, List.flatMap_cons, pieces, pieces, known, alsoKnown, List.cons_append,
        List.cons_append, Option.elim_some, Option.elim_some] at same
      obtain ⟨paths, same⟩ := List.cons.inj same
      have samePath := Encoding.utf8_injective paths
      by_cases texts : text = longer
      · subst texts
        have heads : (file.path, file.text) = (other.path, other.text) := by
          rw [samePath, SourceText.eq_ofString known, SourceText.eq_ofString alsoKnown]
        rcases ih framable alsoFramable (List.append_cancel_left same) with equal | clash | clash
        · exact .inl (congrArg₂ List.cons heads equal)
        · exact .inr (.inl (clash.cons heads))
        · exact .inr (.inr (clash.cons heads.symm))
      -- The longer text has more pieces, which the other set has from its next files.
      · have differ : (utf8 text).splitOn 0 ≠ (utf8 longer).splitOn 0 := fun cuts =>
          texts (Encoding.utf8_injective (splitOn_injective cuts))
        rcases List.append_eq_append_iff.mp same with ⟨extra, cut, goesOn⟩ | ⟨extra, cut, goesOn⟩
        · have some : extra ≠ [] := fun none => differ (by rw [cut, none, List.append_nil])
          exact .inr (.inl (clash_of_splitOn samePath known alsoKnown some cut goesOn))
        · have some : extra ≠ [] := fun none => differ (by rw [cut, none, List.append_nil])
          exact .inr (.inr (clash_of_splitOn samePath.symm alsoKnown known some cut goesOn))

/-- The second of two source sets that clash has a text with a zero in it. -/
theorem Clash.zero (clash : Clash files others) :
    ∃ text ∈ textsOf others, '\x00' ∈ text.toList := by
  obtain ⟨common, path, text, next, rest, longer, more, -, second, goesOn⟩ := clash
  have member : (path, SourceText.ofString longer) ∈ sources others := by simp [second]
  obtain ⟨file, inOthers, same⟩ := List.mem_map.mp member
  obtain ⟨-, holds⟩ := Prod.mk.inj same
  refine ⟨longer, List.mem_filterMap.mpr ⟨file, inOthers, ?_⟩, Encoding.zero_mem_utf8.mp ?_⟩
  · rw [holds, SourceText.toString?_ofString]
  · exact goesOn.subset (by simp)

/-- The bytes of source sets tell them apart, unless they clash. -/
theorem frames_separate (framable : Framable files) (alsoFramable : Framable others) :
    ∃ bytes otherBytes, frames files = .ok bytes ∧ frames others = .ok otherBytes ∧
      Separates files others bytes otherBytes := by
  obtain ⟨bytes, framed, cut⟩ := frames_pieces framable
  obtain ⟨otherBytes, alsoFramed, otherCut⟩ := frames_pieces alsoFramable
  have exact : bytes = otherBytes ↔ files.flatMap pieces = others.flatMap pieces := by
    constructor
    · rintro rfl
      exact List.append_cancel_right (cut.symm.trans otherCut)
    · exact fun same => splitOn_injective (by rw [cut, otherCut, same])
  have same := fun equal => sources_of_pieces framable alsoFramable (exact.mp equal)
  refine ⟨bytes, otherBytes, framed, alsoFramed, exact, same, fun zeroFree equal => ?_⟩
  rcases same equal with sources | clash | clash
  · exact sources
  · obtain ⟨text, inOthers, zero⟩ := clash.zero
    exact absurd zero (zeroFree text (List.mem_append_right _ inOthers))
  · obtain ⟨text, inFiles, zero⟩ := clash.zero
    exact absurd zero (zeroFree text (List.mem_append_left _ inFiles))

end SourceFile

end EnumLookup
