import EnumLookup.Proofs.Store.Lookup

/-!
Following paths in trees. Without links, a path is walked component by component, and it leads to a
directory only through directories. So a walk to a directory stays as it is when directories are
kept, and what stands under a name in a directory is found where the directory is.
-/
namespace EnumLookup.Store

variable {store after : Store} {path : Path} {start directory location : Location}
  {name : String} {parts rest : List String} {entry : Entry}

def walk (store : Store) : Location → List String → Except Fault Location := store.follow 0

theorem IsTree.follow_eq_walk (tree : store.IsTree) (links : Nat) (start : Location)
    (parts : List String) : store.follow links start parts = store.walk start parts := by
  have same (behind behind' : Location → List String → Except Fault Location) :
      store.followFrom behind start parts = store.followFrom behind' start parts := by
    induction parts generalizing start with
    | nil => rfl
    | cons name rest ih =>
      simp only [followFrom, ih]
      split
      · rfl
      · split
        · rfl
        · rfl
        · next target found => exact absurd found (tree.unlinked _ target)
        · rfl
  cases links with
  | zero => rfl
  | succ links => exact same _ _

def Leads (store : Store) (start : Location) (parts : List String) (directory : Location) : Prop :=
  store.walk start parts = .ok directory ∧ store.entry? directory = some .directory

theorem leads_nil :
    store.Leads start [] directory ↔ start = directory ∧ store.entry? start = some .directory := by
  constructor
  · rintro ⟨⟨⟩, found⟩
    exact ⟨rfl, found⟩
  · rintro ⟨rfl, found⟩
    exact ⟨rfl, found⟩

theorem walk_turn (turns : IsTurn name) :
    store.walk start (name :: rest) = store.walk (turn start name) rest := by
  simp [walk, follow, followFrom, turns]

theorem leads_turn (turns : IsTurn name) :
    store.Leads start (name :: rest) directory ↔ store.Leads (turn start name) rest directory := by
  rw [Leads, Leads, walk_turn turns]

theorem walk_down (named : ¬ IsTurn name) (found : store.entry? (start ++ [name]) = some .directory) :
    store.walk start (name :: rest) = store.walk (start ++ [name]) rest := by
  simp [walk, follow, followFrom, named, found]

theorem IsTree.walk_last (tree : store.IsTree) (named : ¬ IsTurn name) :
    store.walk start [name] = .ok (start ++ [name]) := by
  cases found : store.entry? (start ++ [name]) with
  | none => simp [walk, follow, followFrom, named, found]
  | some entry =>
    cases entry with
    | file bytes => simp [walk, follow, followFrom, named, found]
    | directory => simp [walk, follow, followFrom, named, found]
    | link target => exact absurd found (tree.unlinked _ target)

/-- A walk goes on in a directory, or ends at the name. -/
theorem IsTree.walk_cases (tree : store.IsTree) (named : ¬ IsTurn name)
    (ends : store.walk start (name :: rest) = .ok location) :
    (store.entry? (start ++ [name]) = some .directory ∧
      store.walk (start ++ [name]) rest = .ok location) ∨
    (store.entry? (start ++ [name]) ≠ some .directory ∧ rest = [] ∧
      location = start ++ [name]) := by
  by_cases found : store.entry? (start ++ [name]) = some .directory
  · rw [walk_down named found] at ends
    exact .inl ⟨found, ends⟩
  · refine .inr ⟨found, ?_⟩
    simp only [walk, follow, followFrom, named, if_false] at ends
    split at ends
    · next same => exact absurd same found
    · split at ends
      · next last =>
        cases ends
        exact ⟨List.isEmpty_iff.mp last, rfl⟩
      · cases ends
    · next target same => exact absurd same (tree.unlinked _ target)
    · split at ends
      · next last =>
        cases ends
        exact ⟨List.isEmpty_iff.mp last, rfl⟩
      · cases ends

theorem IsTree.leads_down (tree : store.IsTree) (named : ¬ IsTurn name) :
    store.Leads start (name :: rest) directory ↔
      store.entry? (start ++ [name]) = some .directory ∧
        store.Leads (start ++ [name]) rest directory := by
  constructor
  · rintro ⟨ends, found⟩
    rcases tree.walk_cases named ends with ⟨down, ends⟩ | ⟨notDown, -, rfl⟩
    · exact ⟨down, ends, found⟩
    · exact absurd found notDown
  · rintro ⟨down, ends, found⟩
    exact ⟨(walk_down named down).trans ends, found⟩

theorem Leads.unique {other : Location} (leads : store.Leads start parts directory)
    (again : store.Leads start parts other) : directory = other :=
  Except.ok.inj (leads.1.symm.trans again.1)

/-- A walk to a directory stays as it is when directories are kept. -/
theorem Leads.mono (tree : store.IsTree) (afterTree : after.IsTree)
    (kept : ∀ location, store.entry? location = some .directory →
      after.entry? location = some .directory)
    (leads : store.Leads start parts directory) : after.Leads start parts directory := by
  induction parts generalizing start with
  | nil =>
    rw [leads_nil] at leads ⊢
    exact ⟨leads.1, kept _ leads.2⟩
  | cons name rest ih =>
    by_cases turns : IsTurn name
    · rw [leads_turn turns] at leads ⊢
      exact ih leads
    · rw [tree.leads_down turns] at leads
      rw [afterTree.leads_down turns]
      exact ⟨kept _ leads.1, ih leads.2⟩

/-- Names without `..` lead below where they start. -/
theorem IsTree.prefix_of_leads (tree : store.IsTree) (below : ".." ∉ parts)
    (leads : store.Leads start parts directory) : start <+: directory := by
  induction parts generalizing start with
  | nil =>
    obtain ⟨rfl, -⟩ := leads_nil.mp leads
    exact List.prefix_refl _
  | cons name rest ih =>
    obtain ⟨named, below⟩ := not_or.mp (mt List.mem_cons.mpr below)
    by_cases turns : IsTurn name
    · rw [leads_turn turns, turn, if_neg (Ne.symm named)] at leads
      exact ih below leads
    · exact (List.prefix_append ..).trans (ih below ((tree.leads_down turns).mp leads).2)

/-- A turn leads from a directory to a directory. -/
theorem IsTree.turn (tree : store.IsTree) (found : store.entry? start = some .directory) :
    store.entry? (turn start name) = some .directory := by
  unfold Store.turn
  split
  · exact tree.parent found
  · exact found

/-- A walk that ends with a name ends in the directory to which the walk before leads. -/
theorem IsTree.walk_name (tree : store.IsTree) (named : ¬ IsTurn name)
    (home : store.entry? start = some .directory) :
    store.walk start (parts ++ [name]) = .ok location ↔
      ∃ directory, store.Leads start parts directory ∧ location = directory ++ [name] := by
  induction parts generalizing start with
  | nil =>
    simp only [List.nil_append, tree.walk_last named, leads_nil, Except.ok.injEq]
    constructor
    · rintro rfl
      exact ⟨start, ⟨rfl, home⟩, rfl⟩
    · rintro ⟨_, ⟨rfl, -⟩, rfl⟩
      rfl
  | cons first rest ih =>
    by_cases turns : IsTurn first
    · simp only [List.cons_append, walk_turn turns, ih (tree.turn home), leads_turn turns]
    · simp only [tree.leads_down turns]
      constructor
      · intro ends
        rcases tree.walk_cases turns ends with ⟨down, ends⟩ | ⟨-, last, -⟩
        · obtain ⟨directory, leads, rfl⟩ := (ih down).mp ends
          exact ⟨directory, ⟨down, leads⟩, rfl⟩
        · simp at last
      · rintro ⟨directory, ⟨down, leads⟩, rfl⟩
        rw [List.cons_append, walk_down turns down]
        exact (ih down).mpr ⟨directory, leads, rfl⟩

/-- The path leads to a directory, which is at this location. -/
def DirectoryAt (store : Store) (path : Path) (directory : Location) : Prop :=
  store.locate path = .ok directory ∧ store.entry? directory = some .directory

def hasZero (name : String) : Bool := name.toList.contains '\x00'

theorem isDirectory_iff :
    store.isDirectory path = true ↔ ∃ directory, store.DirectoryAt path directory := by
  unfold isDirectory find? DirectoryAt
  cases store.locate path with
  | error fault => simp
  | ok location => simp

theorem DirectoryAt.unique {other : Location} (found : store.DirectoryAt path directory)
    (again : store.DirectoryAt path other) : directory = other :=
  Except.ok.inj (found.1.symm.trans again.1)

theorem locate_eq_ok : store.locate path = .ok location ↔
    path.parts.any hasZero = false ∧ store.entry? (store.origin path) = some .directory ∧
      store.follow maxLinks (store.origin path) path.parts = .ok location := by
  change (if path.parts.any hasZero = true then _
    else if store.entry? (store.origin path) ≠ some .directory then _ else _) = _ ↔ _
  by_cases zero : path.parts.any hasZero = true
  · simp only [zero, if_true, reduceCtorEq, Bool.true_eq_false, false_and]
  · by_cases home : store.entry? (store.origin path) = some .directory
    · simp [zero, home]
    · simp [zero, home]

theorem IsTree.locate_eq_ok (tree : store.IsTree) :
    store.locate path = .ok location ↔ path.parts.any hasZero = false ∧
      store.entry? (store.origin path) = some .directory ∧
        store.walk (store.origin path) path.parts = .ok location := by
  rw [Store.locate_eq_ok, tree.follow_eq_walk]

theorem IsTree.directoryAt_iff (tree : store.IsTree) :
    store.DirectoryAt path directory ↔ path.parts.any hasZero = false ∧
      store.entry? (store.origin path) = some .directory ∧
        store.Leads (store.origin path) path.parts directory := by
  unfold DirectoryAt Leads
  rw [tree.locate_eq_ok, and_assoc, and_assoc]

theorem origin_eq (setting : after.setting = store.setting) (path : Path) :
    after.origin path = store.origin path := by
  rw [origin, origin, setting]

theorem DirectoryAt.mono (tree : store.IsTree) (afterTree : after.IsTree)
    (setting : after.setting = store.setting)
    (kept : ∀ location, store.entry? location = some .directory →
      after.entry? location = some .directory)
    (found : store.DirectoryAt path directory) : after.DirectoryAt path directory := by
  rw [tree.directoryAt_iff] at found
  rw [afterTree.directoryAt_iff, origin_eq setting]
  exact ⟨found.1, kept _ found.2.1, found.2.2.mono tree afterTree kept⟩

structure Proper (name : String) : Prop where
  named : ¬ IsTurn name
  zeroFree : hasZero name = false

theorem IsTree.locate_child (tree : store.IsTree) (proper : Proper name) :
    store.locate (path.child name) = .ok location ↔
      ∃ directory, store.DirectoryAt path directory ∧ location = directory ++ [name] := by
  have zeros : (path.parts ++ [name]).any hasZero = path.parts.any hasZero := by
    simp [proper.zeroFree]
  have same : store.origin (path.child name) = store.origin path := rfl
  simp only [tree.locate_eq_ok, tree.directoryAt_iff, same]
  simp only [Path.child, zeros]
  constructor
  · rintro ⟨zeroFree, home, ends⟩
    obtain ⟨directory, leads, rfl⟩ := (tree.walk_name proper.named home).mp ends
    exact ⟨directory, ⟨zeroFree, home, leads⟩, rfl⟩
  · rintro ⟨directory, ⟨zeroFree, home, leads⟩, rfl⟩
    exact ⟨zeroFree, home, (tree.walk_name proper.named home).mpr ⟨directory, leads, rfl⟩⟩

/-- What a name in a directory stands for. -/
theorem IsTree.find?_child (tree : store.IsTree) (proper : Proper name) :
    store.find? (path.child name) = some entry ↔
      ∃ directory, store.DirectoryAt path directory ∧
        store.entry? (directory ++ [name]) = some entry := by
  unfold find?
  cases located : store.locate (path.child name) with
  | error fault =>
    simp only [reduceCtorEq, false_iff, not_exists, not_and]
    intro directory found
    have := (tree.locate_child proper).mpr ⟨directory, found, rfl⟩
    rw [located] at this
    cases this
  | ok location =>
    obtain ⟨directory, found, rfl⟩ := (tree.locate_child proper).mp located
    constructor
    · intro present
      exact ⟨directory, found, present⟩
    · rintro ⟨other, again, present⟩
      rwa [found.unique again]

theorem locateEntry_child (proper : Proper name) (found : store.DirectoryAt path directory) :
    store.locateEntry (path.child name) = .ok (directory ++ [name]) := by
  have zeroFree : name.toList.contains '\x00' = false := proper.zeroFree
  have located : store.locate ⟨path.root, path.parts⟩ = .ok directory := found.1
  simp only [locateEntry, Path.child, List.getLast?_concat, proper.named, List.dropLast_concat,
    located, found.2, zeroFree, if_false, Bool.false_eq_true]

end EnumLookup.Store
