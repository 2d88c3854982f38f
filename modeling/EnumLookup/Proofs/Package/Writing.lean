import EnumLookup.Proofs.Store.Files
import EnumLookup.Package.Write

/-!
Writing the package. The units give every file a content, and after a write the files have it. A
file is reported as changed when its content was another one, and units that are written again
change nothing.
-/
namespace EnumLookup.Package

open Store (Proper Sets Grows)

variable {store middle after written : Store} {output : Path} {tag : String} {tags : List String}
  {unit : GeneratedUnit} {units : List GeneratedUnit} {file : FileResult}
  {files : List FileResult} {result : WriteResult}

/-- The content that the units give a file; of several units with a tag the last counts. -/
def expected? (units : List GeneratedUnit) (tag : String) : Option (List UInt8) :=
  (units.reverse.find? (·.tag = tag)).map fun unit => utf8 unit.text

def statuses (files : List FileResult) : List (String × FileStatus) :=
  files.map fun file => (file.filename, file.status)

theorem expected?_cons (unit : GeneratedUnit) (units : List GeneratedUnit) (tag : String) :
    expected? (unit :: units) tag =
      (expected? units tag).or (if unit.tag = tag then some (utf8 unit.text) else none) := by
  unfold expected?
  rw [List.reverse_cons, List.find?_append, Option.map_or]
  by_cases same : unit.tag = tag
  · simp [same]
  · simp [same]

theorem expected?_eq_none : expected? units tag = none ↔ tag ∉ units.map (·.tag) := by
  simp [expected?]

theorem expected?_of_mem (distinct : (units.map (·.tag)).Nodup) (member : unit ∈ units) :
    expected? units unit.tag = some (utf8 unit.text) := by
  induction units with
  | nil => cases member
  | cons first rest ih =>
    rw [List.map_cons, List.nodup_cons] at distinct
    rw [expected?_cons]
    rcases List.mem_cons.mp member with rfl | member
    · simp [expected?_eq_none.mpr distinct.1]
    · simp [ih distinct.2 member]

theorem holds_iff {path : Path} {bytes : List UInt8} :
    holds store path bytes = true ↔ store.content? path = some bytes := by
  unfold holds Store.content?
  cases store.find? path with
  | none => simp
  | some entry => cases entry <;> simp

theorem proper_of_known (known : tag ∈ unitOrder) : Proper tag := by
  simp only [unitOrder, List.mem_cons, List.not_mem_nil, or_false] at known
  rcases known with rfl | rfl
  · exact ⟨by decide, by decide⟩
  · exact ⟨by decide, by decide⟩

def statusOf (store : Store) (output : Path) (unit : GeneratedUnit) : FileStatus :=
  if store.content? (unitPath output unit.tag) = some (utf8 unit.text) then .unchanged
  else .written

theorem writeKnown_ok (tree : store.IsTree)
    (there : store.isDirectory (packageDirectory output) = true) (proper : Proper unit.tag)
    (ran : writeKnown output unit store = (.ok file, after)) :
    (file.filename, file.status) = (unit.tag, statusOf store output unit) ∧
      Sets (packageDirectory output) unit.tag (some (utf8 unit.text)) store after := by
  simp only [writeKnown, Store.makeDirectories_there tree there, writeChanged, statusOf,
    ← holds_iff] at ran ⊢
  by_cases held : holds store (unitPath output unit.tag) (utf8 unit.text) = true
  · simp only [held, if_true] at ran ⊢
    cases ran
    exact ⟨rfl, tree.sets (holds_iff.mp held)⟩
  · simp only [held, if_false, Bool.false_eq_true] at ran ⊢
    split at ran
    · cases ran
    · next status middle outcome =>
      split at outcome
      · next wrote =>
        cases outcome
        cases ran
        exact ⟨rfl, tree.write_sets proper wrote⟩
      · cases outcome

theorem writeKnown_current (tree : store.IsTree)
    (there : store.isDirectory (packageDirectory output) = true)
    (current : store.content? (unitPath output unit.tag) = some (utf8 unit.text)) :
    ∃ file, writeKnown output unit store = (.ok file, store) ∧
      (file.filename, file.status) = (unit.tag, .unchanged) := by
  simp [writeKnown, Store.makeDirectories_there tree there, writeChanged, holds_iff.mpr current]

structure Writes (output : Path) (units : List GeneratedUnit) (store : Store)
    (files : List FileResult) (after : Store) : Prop where
  tree : after.IsTree
  reported : statuses files = units.map fun unit => (unit.tag, statusOf store output unit)
  contents : ∀ tag, Proper tag → after.content? (unitPath output tag) =
    (expected? units tag).or (store.content? (unitPath output tag))
  directories : ∀ path, after.isDirectory path = store.isDirectory path

theorem Writes.cons
    (reported : (file.filename, file.status) = (unit.tag, statusOf store output unit))
    (sets : Sets (packageDirectory output) unit.tag (some (utf8 unit.text)) store middle)
    (proper : ∀ other ∈ units, Proper other.tag) (fresh : unit.tag ∉ units.map (·.tag))
    (writes : Writes output units middle files after) :
    Writes output (unit :: units) store (file :: files) after where
  tree := writes.tree
  reported := by
    -- The units that follow have other tags, so their files are still as they were.
    have kept : ∀ other ∈ units, (other.tag, statusOf middle output other) =
        (other.tag, statusOf store output other) := by
      intro other member
      have apart : other.tag ≠ unit.tag := by
        intro same
        exact fresh (List.mem_map.mpr ⟨other, member, same⟩)
      have same := sets.others other.tag apart (proper other member)
      unfold statusOf unitPath
      rw [same]
    have rests := writes.reported.trans (List.map_congr_left kept)
    simp only [statuses, List.map_cons, List.cons.injEq] at rests ⊢
    exact ⟨reported, rests⟩
  contents tag known := by
    have first : middle.content? (unitPath output tag) =
        if tag = unit.tag then some (utf8 unit.text) else store.content? (unitPath output tag) :=
      sets.content?_eq known
    rw [writes.contents tag known, expected?_cons, Option.or_assoc, first]
    by_cases same : unit.tag = tag
    · simp [same]
    · simp [same, Ne.symm same]
  directories path := by rw [writes.directories, sets.directories]

theorem writeAll_writes (tree : store.IsTree)
    (there : units ≠ [] → store.isDirectory (packageDirectory output) = true)
    (proper : ∀ unit ∈ units, Proper unit.tag) (distinct : (units.map (·.tag)).Nodup)
    (ran : writeAll output units store = (.ok files, after)) :
    Writes output units store files after := by
  induction units generalizing store files with
  | nil =>
    cases ran
    exact ⟨tree, rfl, fun tag _ => by simp [expected?], fun _ => rfl⟩
  | cons unit rest ih =>
    have home := there (List.cons_ne_nil _ _)
    obtain ⟨properUnit, properRest⟩ := List.forall_mem_cons.mp proper
    obtain ⟨fresh, distinct⟩ := List.nodup_cons.mp distinct
    unfold writeAll at ran
    split at ran
    · cases ran
    · next file middle first =>
      obtain ⟨reported, sets⟩ := writeKnown_ok tree home properUnit first
      have still : middle.isDirectory (packageDirectory output) = true := by
        rw [sets.directories, home]
      rcases others : writeAll output rest middle with ⟨error | others, final⟩
      · rw [others] at ran
        cases ran
      · rw [others] at ran
        cases ran
        have writes := ih sets.tree (fun _ => still) properRest distinct others
        exact writes.cons reported sets properRest fresh

theorem writeAll_current (tree : store.IsTree)
    (there : units ≠ [] → store.isDirectory (packageDirectory output) = true)
    (current : ∀ unit ∈ units,
      store.content? (unitPath output unit.tag) = some (utf8 unit.text)) :
    ∃ files, writeAll output units store = (.ok files, store) ∧
      statuses files = units.map fun unit => (unit.tag, .unchanged) := by
  induction units with
  | nil => exact ⟨[], rfl, rfl⟩
  | cons unit rest ih =>
    have home := there (List.cons_ne_nil _ _)
    obtain ⟨held, current⟩ := List.forall_mem_cons.mp current
    obtain ⟨file, first, reported⟩ := writeKnown_current tree home held
    obtain ⟨files, others, unchanged⟩ := ih (fun _ => home) current
    refine ⟨file :: files, ?_, ?_⟩
    · simp only [writeAll, first, others, Except.map]
    · simp only [statuses, List.map_cons, List.cons.injEq] at unchanged ⊢
      exact ⟨reported, unchanged⟩

/-- The directory of the package is made when the first unit is written; writing finds everything
as if it had been made before. -/
theorem writeAll_prepared (tree : store.IsTree)
    (ran : writeAll output units store = (.ok files, after)) :
    ∃ middle, Grows store middle ∧ (units = [] → middle = store) ∧
      (units ≠ [] → middle.isDirectory (packageDirectory output) = true) ∧
      writeAll output units middle = (.ok files, after) := by
  cases units with
  | nil => exact ⟨store, tree.grows, fun _ => rfl, fun more => absurd rfl more, ran⟩
  | cons unit rest =>
    have prepares := Store.makeDirectories_prepares tree (packageDirectory output)
    cases made : Store.makeDirectories (packageDirectory output) store with
    | mk outcome middle =>
      rw [made] at prepares
      cases outcome with
      | error error =>
        simp only [writeAll, writeKnown, made] at ran
        cases ran
      | ok _ =>
        have there := prepares.there rfl
        have again := Store.makeDirectories_there prepares.grows.tree there
        have same : writeKnown output unit middle = writeKnown output unit store := by
          simp only [writeKnown, made, again]
        refine ⟨middle, prepares.grows, nofun, fun _ => there, ?_⟩
        simpa only [writeAll, same] using ran

structure Removes (output : Path) (tags : List String) (store : Store)
    (files : List FileResult) (after : Store) : Prop where
  tree : after.IsTree
  reported : statuses files = (tags.filter fun tag =>
    (store.content? (unitPath output tag)).isSome).map fun tag => (tag, .removed)
  contents : ∀ tag, Proper tag → after.content? (unitPath output tag) =
    if tag ∈ tags then none else store.content? (unitPath output tag)
  directories : ∀ path, after.isDirectory path = store.isDirectory path

theorem Removes.cons_removed
    (sets : Sets (packageDirectory output) tag none store middle)
    (there : (store.content? (unitPath output tag)).isSome = true)
    (proper : ∀ other ∈ tags, Proper other) (fresh : tag ∉ tags) (path : Path)
    (removes : Removes output tags middle files after) :
    Removes output (tag :: tags) store (⟨tag, path, 0, 0, .removed⟩ :: files) after where
  tree := removes.tree
  reported := by
    have kept : ∀ other ∈ tags, (middle.content? (unitPath output other)).isSome =
        (store.content? (unitPath output other)).isSome := by
      intro other member
      have apart : other ≠ tag := by
        rintro rfl
        exact fresh member
      unfold unitPath
      rw [sets.others other apart (proper other member)]
    have rests := removes.reported
    rw [List.filter_congr kept] at rests
    simp only [statuses, List.map_cons, List.filter_cons, there, if_true] at rests ⊢
    rw [rests]
  contents other known := by
    have first : middle.content? (unitPath output other) =
        if other = tag then none else store.content? (unitPath output other) :=
      sets.content?_eq known
    rw [removes.contents other known, first]
    by_cases same : other = tag
    · simp [same]
    · simp [same]
  directories path := by rw [removes.directories, sets.directories]

theorem Removes.cons_absent (absent : store.content? (unitPath output tag) = none)
    (removes : Removes output tags store files after) :
    Removes output (tag :: tags) store files after where
  tree := removes.tree
  reported := by simpa [List.filter_cons, absent] using removes.reported
  contents other known := by
    rw [removes.contents other known]
    by_cases same : other = tag
    · simp [same, absent]
    · simp [same]
  directories := removes.directories

theorem removeStale_removes (tree : store.IsTree) (output : Path)
    (proper : ∀ tag ∈ tags, Proper tag) (distinct : tags.Nodup) :
    ∃ files after, removeStale output tags store = (.ok files, after) ∧
      Removes output tags store files after := by
  induction tags generalizing store with
  | nil => exact ⟨[], store, rfl, tree, rfl, fun tag _ => by simp, fun _ => rfl⟩
  | cons tag rest ih =>
    obtain ⟨properTag, properRest⟩ := List.forall_mem_cons.mp proper
    obtain ⟨fresh, distinct⟩ := List.nodup_cons.mp distinct
    by_cases there : store.isFile (unitPath output tag) = true
    · obtain ⟨middle, unlinked, sets⟩ := tree.unlink_sets properTag there
      obtain ⟨files, after, ran, removes⟩ := ih sets.tree properRest distinct
      have unlinked : store.unlink (unitPath output tag) = .ok middle := unlinked
      refine ⟨_, after, ?_, removes.cons_removed sets (by rwa [← Store.isFile_eq]) properRest fresh
        (middle.resolved (unitPath output tag))⟩
      simp only [removeStale, there, unlinked, ran, Except.map, if_true]
    · obtain ⟨files, after, ran, removes⟩ := ih tree properRest distinct
      have absent : store.content? (unitPath output tag) = none := by
        simpa [Store.isFile_eq] using there
      refine ⟨files, after, ?_, removes.cons_absent absent⟩
      simp only [removeStale, there, Bool.false_eq_true, if_false, ran]

theorem removeStale_absent
    (absent : ∀ tag ∈ tags, store.content? (unitPath output tag) = none) :
    removeStale output tags store = (.ok [], store) := by
  induction tags with
  | nil => rfl
  | cons tag rest ih =>
    obtain ⟨first, absent⟩ := List.forall_mem_cons.mp absent
    simp [removeStale, Store.isFile_eq, first, ih absent]

theorem mem_staleTags :
    tag ∈ staleTags units ↔ tag ∈ unitOrder ∧ tag ∉ units.map (·.tag) := by
  simp [staleTags]

theorem exists_changed_iff : (∃ file ∈ files, file.filename = tag ∧ file.status ≠ .unchanged) ↔
    ∃ status, (tag, status) ∈ statuses files ∧ status ≠ .unchanged := by
  constructor
  · rintro ⟨file, member, rfl, changed⟩
    exact ⟨file.status, List.mem_map.mpr ⟨file, member, rfl⟩, changed⟩
  · rintro ⟨status, reported, changed⟩
    obtain ⟨file, member, same⟩ := List.mem_map.mp reported
    obtain ⟨rfl, rfl⟩ := Prod.mk.inj same
    exact ⟨file, member, rfl, changed⟩

theorem changed_iff {removed : List FileResult} (writes : Writes output units store files middle)
    (removes : Removes output (staleTags units) middle removed written)
    (known : ∀ unit ∈ units, unit.tag ∈ unitOrder) (distinct : (units.map (·.tag)).Nodup) :
    (∃ file ∈ files ++ removed, file.filename = tag ∧ file.status ≠ .unchanged) ↔
      tag ∈ unitOrder ∧ store.content? (unitPath output tag) ≠ expected? units tag := by
  have kept (tag : String) (member : tag ∈ unitOrder) (free : tag ∉ units.map (·.tag)) :
      middle.content? (unitPath output tag) = store.content? (unitPath output tag) := by
    rw [writes.contents tag (proper_of_known member), expected?_eq_none.mpr free, Option.none_or]
  rw [exists_changed_iff, statuses, List.map_append, ← statuses, ← statuses, writes.reported,
    removes.reported]
  constructor
  · rintro ⟨status, reported, changed⟩
    rcases List.mem_append.mp reported with wrote | gone
    · obtain ⟨unit, member, same⟩ := List.mem_map.mp wrote
      obtain ⟨rfl, rfl⟩ := Prod.mk.inj same
      refine ⟨known unit member, ?_⟩
      rw [expected?_of_mem distinct member]
      intro held
      exact changed (if_pos held)
    · obtain ⟨stale, found, same⟩ := List.mem_map.mp gone
      obtain ⟨rfl, rfl⟩ := Prod.mk.inj same
      obtain ⟨stale, there⟩ := List.mem_filter.mp found
      obtain ⟨member, free⟩ := mem_staleTags.mp stale
      rw [kept _ member free] at there
      rw [expected?_eq_none.mpr free]
      exact ⟨member, Option.isSome_iff_ne_none.mp there⟩
  · rintro ⟨member, differs⟩
    by_cases emitted : tag ∈ units.map (·.tag)
    · obtain ⟨unit, inside, rfl⟩ := List.mem_map.mp emitted
      rw [expected?_of_mem distinct inside] at differs
      refine ⟨.written, List.mem_append_left _ (List.mem_map.mpr ⟨unit, inside, ?_⟩), by decide⟩
      rw [statusOf, if_neg differs]
    · rw [expected?_eq_none.mpr emitted, ← kept tag member emitted] at differs
      have stale : tag ∈ (staleTags units).filter fun tag =>
          (middle.content? (unitPath output tag)).isSome :=
        List.mem_filter.mpr ⟨mem_staleTags.mpr ⟨member, emitted⟩,
          Option.isSome_iff_ne_none.mpr differs⟩
      exact ⟨.removed, List.mem_append_right _ (List.mem_map.mpr ⟨tag, stale, rfl⟩), by decide⟩

/-- What writing a package does to a tree: its files get the content that the units give them, and
those whose content was another one are reported as changed. -/
structure Updates (output : Path) (units : List GeneratedUnit) (store : Store)
    (result : WriteResult) (written : Store) : Prop where
  tree : written.IsTree
  contents : ∀ tag ∈ unitOrder, written.content? (unitPath output tag) = expected? units tag
  changed : ∀ tag, (∃ file ∈ result.files, file.filename = tag ∧ file.status ≠ .unchanged) ↔
    tag ∈ unitOrder ∧ store.content? (unitPath output tag) ≠ expected? units tag
  there : units ≠ [] → written.isDirectory (packageDirectory output) = true

theorem writeOrdered_updates (tree : store.IsTree)
    (there : units ≠ [] → store.isDirectory (packageDirectory output) = true)
    (known : ∀ unit ∈ units, unit.tag ∈ unitOrder) (distinct : (units.map (·.tag)).Nodup)
    (ran : writeOrdered output units store = (.ok result, written)) :
    Updates output units store result written := by
  unfold writeOrdered at ran
  split at ran
  · cases ran
  · next files middle wrote =>
    have proper : ∀ unit ∈ units, Proper unit.tag := fun unit member =>
      proper_of_known (known unit member)
    have writes := writeAll_writes tree there proper distinct wrote
    have stale : ∀ tag ∈ staleTags units, Proper tag := fun tag member =>
      proper_of_known (mem_staleTags.mp member).1
    have ordered : unitOrder.Nodup := by decide
    obtain ⟨removed, after, removal, removes⟩ :=
      removeStale_removes writes.tree output stale (List.Pairwise.filter _ ordered)
    rw [removal] at ran
    cases ran
    refine ⟨removes.tree, fun tag member => ?_,
      fun tag => changed_iff writes removes known distinct, fun some => ?_⟩
    · have properTag := proper_of_known member
      rw [removes.contents tag properTag, writes.contents tag properTag]
      by_cases emitted : tag ∈ units.map (·.tag)
      · have fresh : tag ∉ staleTags units := fun gone => (mem_staleTags.mp gone).2 emitted
        obtain ⟨unit, inside, rfl⟩ := List.mem_map.mp emitted
        rw [if_neg fresh, expected?_of_mem distinct inside, Option.some_or]
      · rw [if_pos (mem_staleTags.mpr ⟨member, emitted⟩), expected?_eq_none.mpr emitted]
    · rw [removes.directories, writes.directories, there some]

/-- Units whose files are as they say are written without any change. -/
theorem writeOrdered_current (tree : store.IsTree)
    (there : units ≠ [] → store.isDirectory (packageDirectory output) = true)
    (known : ∀ unit ∈ units, unit.tag ∈ unitOrder) (distinct : (units.map (·.tag)).Nodup)
    (current : ∀ tag ∈ unitOrder, store.content? (unitPath output tag) = expected? units tag) :
    ∃ result, writeOrdered output units store = (.ok result, store) ∧
      statuses result.files = (units.map (·.tag)).map fun tag => (tag, .unchanged) := by
  have held : ∀ unit ∈ units,
      store.content? (unitPath output unit.tag) = some (utf8 unit.text) := by
    intro unit member
    rw [current unit.tag (known unit member), expected?_of_mem distinct member]
  have absent : ∀ tag ∈ staleTags units, store.content? (unitPath output tag) = none := by
    intro tag stale
    obtain ⟨member, free⟩ := mem_staleTags.mp stale
    rw [current tag member, expected?_eq_none.mpr free]
  obtain ⟨files, ran, unchanged⟩ := writeAll_current tree there held
  refine ⟨⟨output, files ++ []⟩, ?_, ?_⟩
  · simp only [writeOrdered, ran, removeStale_absent absent, Except.map]
  · rw [List.append_nil, unchanged, List.map_map]
    rfl

theorem writeOrdered_prepared (tree : store.IsTree)
    (ran : writeOrdered output units store = (.ok result, written)) :
    ∃ middle, Grows store middle ∧ (units = [] → middle = store) ∧
      (units ≠ [] → middle.isDirectory (packageDirectory output) = true) ∧
      writeOrdered output units middle = (.ok result, written) := by
  unfold writeOrdered at ran
  split at ran
  · cases ran
  · next files after wrote =>
    obtain ⟨middle, grows, same, there, again⟩ := writeAll_prepared tree wrote
    refine ⟨middle, grows, same, there, ?_⟩
    simpa only [writeOrdered, again] using ran

end EnumLookup.Package
