import EnumLookup.Path

/-!
Paths and their texts. What is read from a text is in normal form, and a path in normal form is
read back from its text, so that no two such paths have one text.
-/
namespace EnumLookup.Path

def IsPart (part : String) : Prop := part ≠ "" ∧ part ≠ "." ∧ '/' ∉ part.toList

structure IsNormal (path : Path) : Prop where
  root : path.root ≤ 2
  parts : ∀ part ∈ path.parts, IsPart part

variable {path base other : Path}

theorem IsNormal.append (normal : base.IsNormal) (inside : path.IsNormal) :
    (base.append path).IsNormal := by
  unfold Path.append
  split
  · exact ⟨normal.root, List.forall_mem_append.mpr ⟨normal.parts, inside.parts⟩⟩
  · exact inside

theorem splitSlashes_eq (cs : List Char) : splitSlashes cs = cs.splitOn '/' := by
  induction cs with
  | nil => rfl
  | cons c rest ih =>
    rw [splitSlashes, List.splitOn_cons_eq_if_modifyHead, ih]
    by_cases slash : c = '/'
    · simp [slash]
    · rw [if_neg slash, if_neg (by simpa using slash)]
      cases parts : List.splitOn '/' rest with
      | nil => exact absurd parts (List.splitOn_ne_nil '/' rest)
      | cons part others => rfl

theorem splitSlashes_free {cs part : List Char} (member : part ∈ splitSlashes cs) :
    '/' ∉ part := by
  induction cs generalizing part with
  | nil =>
    obtain rfl := List.mem_singleton.mp member
    exact List.not_mem_nil
  | cons c rest ih =>
    rw [splitSlashes] at member
    split at member
    · rcases List.mem_cons.mp member with rfl | inRest
      · exact List.not_mem_nil
      · exact ih inRest
    · next other =>
      split at member
      · obtain rfl := List.mem_singleton.mp member
        simpa using Ne.symm other
      · next first others split =>
        rcases List.mem_cons.mp member with rfl | inRest
        · rw [List.mem_cons, not_or]
          exact ⟨Ne.symm other, ih (split ▸ List.mem_cons_self ..)⟩
        · exact ih (split ▸ List.mem_cons_of_mem _ inRest)

/-- What is read from a text is in normal form. -/
theorem ofString_normal (text : String) : (ofString text).IsNormal := by
  constructor
  · unfold ofString leadingSlashes
    dsimp only
    split <;> omega
  · intro part member
    obtain ⟨isPart, kept⟩ := List.mem_filter.mp member
    obtain ⟨cs, split, rfl⟩ := List.mem_map.mp isPart
    simp only [Bool.and_eq_true, decide_eq_true_eq] at kept
    refine ⟨kept.1, kept.2, ?_⟩
    rw [String.toList_ofList]
    exact splitSlashes_free split

def joined (parts : List String) : List Char := ['/'].intercalate (parts.map String.toList)

theorem toList_text (below : ¬(path.root = 0 ∧ path.parts = [])) :
    path.text.toList = List.replicate path.root '/' ++ joined path.parts := by
  rw [text, if_neg below, String.toList_append, rootText, String.toList_ofList,
    String.toList_intercalate]
  rfl

theorem mem_joined {parts : List String} {c : Char} (member : c ∈ joined parts) :
    c = '/' ∨ ∃ part ∈ parts, c ∈ part.toList := by
  induction parts with
  | nil => cases member
  | cons part rest ih =>
    cases rest with
    | nil =>
      rw [joined, List.map_singleton, List.intercalate_singleton] at member
      exact .inr ⟨part, List.mem_cons_self .., member⟩
    | cons next rest =>
      rw [joined, List.map_cons, List.map_cons, List.intercalate_cons_cons, List.mem_append,
        List.mem_append, List.mem_singleton] at member
      rcases member with (own | slash) | others
      · exact .inr ⟨part, List.mem_cons_self .., own⟩
      · exact .inl slash
      · exact (ih others).imp_right fun ⟨part, inRest, inside⟩ =>
          ⟨part, List.mem_cons_of_mem _ inRest, inside⟩

/-- The text of a path is made of slashes, dots and what is in the components. -/
theorem mem_text {c : Char} (member : c ∈ path.text.toList) :
    c = '/' ∨ c = '.' ∨ ∃ part ∈ path.parts, c ∈ part.toList := by
  by_cases nothing : path.root = 0 ∧ path.parts = []
  · rw [text, if_pos nothing] at member
    exact .inr (.inl (List.mem_singleton.mp member))
  · rw [toList_text nothing] at member
    rcases List.mem_append.mp member with slash | inParts
    · exact .inl (List.eq_of_mem_replicate slash)
    · exact (mem_joined inParts).imp_right .inr

theorem splitSlashes_joined {parts : List String} (some : parts ≠ [])
    (sound : ∀ part ∈ parts, IsPart part) :
    splitSlashes (joined parts) = parts.map String.toList := by
  rw [splitSlashes_eq]
  apply List.splitOn_intercalate
  · intro chars member
    obtain ⟨part, inside, rfl⟩ := List.mem_map.mp member
    exact (sound part inside).2.2
  · simpa using some

theorem splitSlashes_replicate (count : Nat) (cs : List Char) :
    splitSlashes (List.replicate count '/' ++ cs) =
      List.replicate count [] ++ splitSlashes cs := by
  induction count with
  | zero => rfl
  | succ count ih =>
    rw [List.replicate_succ, List.cons_append, splitSlashes, if_pos rfl, ih]
    rfl

theorem takeWhile_joined {parts : List String} (sound : ∀ part ∈ parts, IsPart part) :
    (joined parts).takeWhile (· == '/') = [] := by
  cases parts with
  | nil => rfl
  | cons part rest =>
    obtain ⟨nonempty, -, free⟩ := sound part (List.mem_cons_self ..)
    obtain ⟨c, cs, chars⟩ := List.exists_cons_of_ne_nil (mt String.toList_eq_nil_iff.mp nonempty)
    have other : c ≠ '/' := fun slash => free (by rw [chars, slash]; exact List.mem_cons_self ..)
    obtain ⟨behind, whole⟩ : ∃ behind, joined (part :: rest) = c :: behind := by
      cases rest with
      | nil => exact ⟨cs, by rw [joined, List.map_singleton, List.intercalate_singleton, chars]⟩
      | cons next rest =>
        rw [joined, List.map_cons, List.map_cons, List.intercalate_cons_cons, chars]
        exact ⟨_, rfl⟩
    rw [whole, List.takeWhile_cons_of_neg (by simpa using other)]

theorem leadingSlashes_replicate {count : Nat} (few : count ≤ 2) {cs : List Char}
    (none : cs.takeWhile (· == '/') = []) :
    leadingSlashes (List.replicate count '/' ++ cs) = count := by
  have leading : (List.replicate count '/' ++ cs).takeWhile (· == '/') =
      List.replicate count '/' := by
    rw [List.takeWhile_append_of_pos (by simp), none, List.append_nil]
  rw [leadingSlashes, leading, List.length_replicate]
  match count with
  | 0 => rfl
  | 1 => rfl
  | 2 => rfl

/-- A path in normal form is read back from its text. -/
theorem IsNormal.ofString_text (normal : path.IsNormal) : ofString path.text = path := by
  by_cases nothing : path.root = 0 ∧ path.parts = []
  · rw [text, if_pos nothing]
    obtain ⟨root, parts⟩ := path
    obtain ⟨rfl, rfl⟩ := nothing
    rfl
  · have kept : (path.parts.filter fun part => part ≠ "" && part ≠ ".") = path.parts := by
      rw [List.filter_eq_self]
      intro part member
      obtain ⟨nonempty, noDot, -⟩ := normal.parts part member
      simp [nonempty, noDot]
    have parts : ((splitSlashes (joined path.parts)).map String.ofList).filter
        (fun part => part ≠ "" && part ≠ ".") = path.parts := by
      by_cases empty : path.parts = []
      · rw [empty]
        rfl
      · rw [splitSlashes_joined empty normal.parts, List.map_map]
        simpa [Function.comp_def] using kept
    have slashes : ((List.replicate path.root []).map String.ofList).filter
        (fun part => part ≠ "" && part ≠ ".") = [] := by
      simp
    rw [ofString, toList_text nothing, splitSlashes_replicate, List.map_append,
      List.filter_append, parts, slashes,
      leadingSlashes_replicate normal.root (takeWhile_joined normal.parts)]
    rfl

theorem IsNormal.text_injective (normal : path.IsNormal) (otherNormal : other.IsNormal)
    (same : path.text = other.text) : path = other := by
  rw [← normal.ofString_text, same, otherNormal.ofString_text]

/-- Below another path, by what is written. -/
def IsWithin (path base : Path) : Prop :=
  base ≠ path ∧ base.root = path.root ∧ base.parts <+: path.parts

instance (path base : Path) : Decidable (path.IsWithin base) :=
  inferInstanceAs (Decidable (_ ∧ _))

/-- A path that is reached from two others by relative ones, which lie within each other then. -/
theorem within_of_append_eq {inside inner : Path} (rootless : inside.root = 0)
    (alsoRootless : inner.root = 0) (same : base.append inside = other.append inner) :
    base = other ∨ base.IsWithin other ∨ other.IsWithin base := by
  rw [append, append, if_pos rootless, if_pos alsoRootless, Path.mk.injEq] at same
  by_cases equal : base = other
  · exact .inl equal
  · have starts : base.parts <+: other.parts ++ inner.parts := same.2 ▸ List.prefix_append ..
    rcases List.prefix_or_prefix_of_prefix starts (List.prefix_append ..) with below | above
    · exact .inr (.inr ⟨equal, same.1, below⟩)
    · exact .inr (.inl ⟨Ne.symm equal, same.1.symm, above⟩)

end EnumLookup.Path
