import EnumLookup.Proofs.Package.Checking
import EnumLookup.Proofs.Store.Alterations

/-!
Writing the package where there may be links. The directory of the package is made first, and the
files are written and removed in it. Unless a link stands in the place of one of them, nothing else
is touched, and the files have the contents that the units give them.
-/
namespace EnumLookup.Package

open Store (Alters IsFileSystem Made Proper)

variable {store middle after written : Store} {output : Path} {home : Location} {tag : String}
  {tags : List String} {unit : GeneratedUnit} {units ordered : List GeneratedUnit}
  {file : FileResult} {files : List FileResult} {result : WriteResult}

def opened (output : Path) (store : Store) : Store :=
  (Store.makeDirectories (packageDirectory output) store).2

def Owned (home location : Location) : Prop := ∃ tag ∈ unitOrder, location = home ++ [tag]

def Unlinked (store : Store) (home : Location) : Prop :=
  ∀ tag ∈ unitOrder, ∀ target, store.entry? (home ++ [tag]) ≠ some (.link target)

/-- The directory of the package is at this location, and its files are no links. -/
structure Ready (output : Path) (home : Location) (store : Store) : Prop where
  system : store.IsFileSystem
  found : store.DirectoryAt (packageDirectory output) home
  unlinked : Unlinked store home

def bytesAt (store : Store) (location : Location) : Option (List UInt8) :=
  match store.entry? location with
  | some (.file bytes) => some bytes
  | _ => none

theorem Ready.locate (ready : Ready output home store) (known : tag ∈ unitOrder) :
    store.locate (unitPath output tag) = .ok (home ++ [tag]) :=
  ready.found.locate_child (proper_of_known known) (ready.unlinked tag known)

theorem Ready.content? (ready : Ready output home store) (known : tag ∈ unitOrder) :
    store.content? (unitPath output tag) = bytesAt store (home ++ [tag]) := by
  simp only [Store.content?, Store.find?, ready.locate known]
  rfl

structure Rewrites (output : Path) (home : Location) (contents : String → Option (List UInt8))
    (store after : Store) : Prop where
  ready : Ready output home after
  alters : Alters (Owned home) store after
  contents : ∀ tag ∈ unitOrder, after.content? (unitPath output tag) = contents tag

theorem Rewrites.trans {contents others : String → Option (List UInt8)}
    (first : Rewrites output home contents store middle)
    (second : Rewrites output home others middle after) :
    Rewrites output home others store after :=
  ⟨second.ready, first.alters.trans second.alters, second.contents⟩

theorem Ready.rewrites (ready : Ready output home store) :
    Rewrites output home (fun tag => store.content? (unitPath output tag)) store store :=
  ⟨ready, ready.system.alters _, fun _ _ => rfl⟩

/-- One file of the package is replaced or removed. -/
theorem Ready.rewrites_one (ready : Ready output home store) (known : tag ∈ unitOrder)
    (alters : Alters (· = home ++ [tag]) store after) {content : Option (List UInt8)}
    (placed : after.entry? (home ++ [tag]) = content.map .file) :
    Rewrites output home
      (fun other => if other = tag then content else store.content? (unitPath output other))
      store after := by
  have unlinked : Unlinked after home := by
    intro other alsoKnown target
    by_cases same : other = tag
    · subst same
      rw [placed]
      cases content <;> simp
    · rw [alters.entry?_eq (by simpa using same)]
      exact ready.unlinked other alsoKnown target
  have still : Ready output home after :=
    ⟨alters.system, alters.keeps.directoryAt ready.found, unlinked⟩
  refine ⟨still, alters.mono fun _ same => ⟨tag, known, same⟩, fun other alsoKnown => ?_⟩
  rw [still.content? alsoKnown, ready.content? alsoKnown]
  by_cases same : other = tag
  · subst same
    rw [if_pos rfl, bytesAt, placed]
    cases content <;> rfl
  · rw [if_neg same, bytesAt, bytesAt, alters.entry?_eq (by simpa using same)]

theorem Ready.write (ready : Ready output home store) (known : tag ∈ unitOrder)
    {bytes : List UInt8} (wrote : store.write (unitPath output tag) bytes = .ok after) :
    Rewrites output home
      (fun other => if other = tag then some bytes else store.content? (unitPath output other))
      store after := by
  simp only [Store.write, ready.locate known] at wrote
  split at wrote
  · cases wrote
  · next noDirectory =>
    cases wrote
    have proper := proper_of_known known
    have free : ∀ found, store.entry? (home ++ [tag]) = some found →
        ∃ bytes, found = .file bytes := by
      intro found present
      cases found with
      | file bytes => exact ⟨bytes, rfl⟩
      | directory => exact absurd present noDirectory
      | link target => exact absurd present (ready.unlinked tag known target)
    exact ready.rewrites_one known (ready.system.put_alters ready.found.2 proper free _)
      (Store.entry?_put_same store (by simp) _)

theorem Ready.writeKnown (ready : Ready output home store) (known : unit.tag ∈ unitOrder)
    (ran : writeKnown output unit store = (.ok file, after)) :
    Rewrites output home (fun tag => if tag = unit.tag then some (utf8 unit.text)
      else store.content? (unitPath output tag)) store after := by
  have there := Store.isDirectory_iff.mpr ⟨home, ready.found⟩
  simp only [Package.writeKnown, ready.system.makeDirectories_there there, writeChanged] at ran
  by_cases held : holds store (unitPath output unit.tag) (utf8 unit.text) = true
  · simp only [held, if_true] at ran
    cases ran
    refine ⟨ready, ready.system.alters _, fun tag _ => ?_⟩
    by_cases same : tag = unit.tag
    · subst same
      rw [if_pos rfl, holds_iff.mp held]
    · rw [if_neg same]
  · simp only [held, if_false, Bool.false_eq_true] at ran
    split at ran
    · cases ran
    · next status middle outcome =>
      split at outcome
      · next wrote =>
        cases outcome
        cases ran
        exact ready.write known wrote
      · cases outcome

theorem Ready.writeAll (ready : Ready output home store)
    (known : ∀ unit ∈ units, unit.tag ∈ unitOrder)
    (ran : writeAll output units store = (.ok files, after)) :
    Rewrites output home
      (fun tag => (expected? units tag).or (store.content? (unitPath output tag))) store after := by
  induction units generalizing store files with
  | nil =>
    cases ran
    exact ready.rewrites
  | cons unit rest ih =>
    obtain ⟨knownUnit, known⟩ := List.forall_mem_cons.mp known
    unfold Package.writeAll at ran
    split at ran
    · cases ran
    · next file middle wrote =>
      have first := ready.writeKnown knownUnit wrote
      rcases ranRest : Package.writeAll output rest middle with ⟨error | others, final⟩
      · rw [ranRest] at ran
        cases ran
      · rw [ranRest] at ran
        cases ran
        have rests := ih first.ready known ranRest
        refine ⟨rests.ready, first.alters.trans rests.alters, fun tag member => ?_⟩
        rw [rests.contents tag member, first.contents tag member, expected?_cons, Option.or_assoc]
        by_cases same : unit.tag = tag
        · simp [same]
        · simp [same, Ne.symm same]

theorem Ready.unlink (ready : Ready output home store) (known : tag ∈ unitOrder)
    (there : store.isFile (unitPath output tag) = true) :
    ∃ after, store.unlink (unitPath output tag) = .ok after ∧
      Rewrites output home
        (fun other => if other = tag then none else store.content? (unitPath output other))
        store after := by
  rw [Store.isFile_eq, ready.content? known, Option.isSome_iff_exists] at there
  obtain ⟨bytes, present⟩ := there
  have present : store.entry? (home ++ [tag]) = some (.file bytes) := by
    unfold bytesAt at present
    split at present
    · next found =>
      cases present
      exact found
    · cases present
  have placed : Store.entry? (store.erase (home ++ [tag])) (home ++ [tag]) = none := by
    rw [Store.entry?_erase store (by simp), if_pos (List.prefix_refl _)]
  have located : store.locateEntry (unitPath output tag) = .ok (home ++ [tag]) :=
    Store.locateEntry_child (proper_of_known known) ready.found
  refine ⟨store.erase (home ++ [tag]), by simp [Store.unlink, located, present], ?_⟩
  exact ready.rewrites_one known (ready.system.erase_alters present)
    (placed.trans (Option.map_none (f := Entry.file)).symm)

theorem Ready.removeStale (ready : Ready output home store)
    (known : ∀ tag ∈ tags, tag ∈ unitOrder) :
    ∃ files after, removeStale output tags store = (.ok files, after) ∧
      Rewrites output home
        (fun tag => if tag ∈ tags then none else store.content? (unitPath output tag))
        store after := by
  induction tags generalizing store with
  | nil =>
    refine ⟨[], store, rfl, ready, ready.system.alters _, fun tag _ => by simp⟩
  | cons tag rest ih =>
    obtain ⟨knownTag, known⟩ := List.forall_mem_cons.mp known
    by_cases there : store.isFile (unitPath output tag) = true
    · obtain ⟨middle, unlinked, first⟩ := ready.unlink knownTag there
      obtain ⟨files, after, ran, rests⟩ := ih first.ready known
      let path := middle.resolved (unitPath output tag)
      refine ⟨⟨tag, path, 0, 0, .removed⟩ :: files, after, ?_, rests.ready,
        first.alters.trans rests.alters, fun other alsoKnown => ?_⟩
      · simp only [Package.removeStale, there, unlinked, ran, Except.map, if_true, path]
      · rw [rests.contents other alsoKnown, first.contents other alsoKnown]
        by_cases same : other = tag
        · simp [same]
        · simp [same]
    · obtain ⟨files, after, ran, rests⟩ := ih ready known
      have absent : store.content? (unitPath output tag) = none := by
        simpa [Store.isFile_eq] using there
      refine ⟨files, after, ?_, rests.ready, rests.alters, fun other alsoKnown => ?_⟩
      · simp only [Package.removeStale, there, Bool.false_eq_true, if_false, ran]
      · rw [rests.contents other alsoKnown]
        by_cases same : other = tag
        · simp [same, absent]
        · simp [same]

theorem Ready.writeOrdered (ready : Ready output home store)
    (known : ∀ unit ∈ ordered, unit.tag ∈ unitOrder)
    (ran : writeOrdered output ordered store = (.ok result, after)) :
    Rewrites output home (expected? ordered) store after := by
  unfold Package.writeOrdered at ran
  split at ran
  · cases ran
  · next files middle wrote =>
    have writes := ready.writeAll known wrote
    obtain ⟨removed, final, removal, removes⟩ :=
      writes.ready.removeStale fun tag (stale : tag ∈ staleTags ordered) =>
        (mem_staleTags.mp stale).1
    rw [removal] at ran
    cases ran
    refine ⟨removes.ready, writes.alters.trans removes.alters, fun tag member => ?_⟩
    rw [removes.contents tag member, writes.contents tag member]
    by_cases emitted : tag ∈ ordered.map (·.tag)
    · have fresh : tag ∉ staleTags ordered := fun gone => (mem_staleTags.mp gone).2 emitted
      have some : expected? ordered tag ≠ none := mt expected?_eq_none.mp (not_not.mpr emitted)
      rw [if_neg fresh]
      cases content : expected? ordered tag with
      | none => exact absurd content some
      | some bytes => rfl
    · rw [if_pos (mem_staleTags.mpr ⟨member, emitted⟩), expected?_eq_none.mpr emitted]

theorem opened_alters (system : store.IsFileSystem) (output : Path) :
    Alters (Made store (opened output store)) store (opened output store) :=
  (system.makeDirectories_opens (packageDirectory output)).alters

theorem Unlinked.opened (unlinked : Unlinked store home) (system : store.IsFileSystem)
    (output : Path) : Unlinked (opened output store) home := by
  intro tag known target link
  by_cases made : Made store (Package.opened output store) (home ++ [tag])
  · rw [made.2] at link
    cases link
  · rw [(opened_alters system output).entry?_eq made] at link
    exact unlinked tag known target link

/-- Writing some units starts by making the directory of the package. If that fails, so does the
write; otherwise the write goes on as if the directory had been there. -/
theorem writeOrdered_starts (output : Path) (system : store.IsFileSystem)
    (nonempty : ordered ≠ []) :
    (∃ error, writeOrdered output ordered store = (.error error, opened output store)) ∨
      (opened output store).isDirectory (packageDirectory output) = true ∧
        writeOrdered output ordered store = writeOrdered output ordered (opened output store) := by
  obtain ⟨unit, rest, rfl⟩ := List.exists_cons_of_ne_nil nonempty
  have opens := system.makeDirectories_opens (packageDirectory output)
  unfold opened
  revert opens
  cases made : Store.makeDirectories (packageDirectory output) store with
  | mk outcome middle =>
    intro opens
    cases outcome with
    | error error => exact .inl ⟨error, by simp only [writeOrdered, writeAll, writeKnown, made]⟩
    | ok _ =>
      have there := opens.there rfl
      have again := opens.alters.system.makeDirectories_there there
      have same : writeKnown output unit middle = writeKnown output unit store := by
        simp only [writeKnown, made, again]
      exact .inr ⟨there, by simp only [writeOrdered, writeAll, same]⟩

theorem writeOrdered_opened (system : store.IsFileSystem) (nonempty : ordered ≠ [])
    (ran : writeOrdered output ordered store = (.ok result, written)) :
    (opened output store).isDirectory (packageDirectory output) = true ∧
      writeOrdered output ordered (opened output store) = (.ok result, written) := by
  rcases writeOrdered_starts output system nonempty with ⟨error, failed⟩ | ⟨there, same⟩
  · rw [failed] at ran
    cases ran
  · exact ⟨there, same ▸ ran⟩

theorem mem_ordered_iff (sorted : orderUnits units = .ok ordered) :
    unit ∈ ordered ↔ unit ∈ units := by
  constructor
  · exact fun member => (mem_orderUnits sorted member).1
  · intro member
    rw [orderUnits_ok sorted]
    unfold orderUnits at sorted
    split at sorted
    · cases sorted
    · next allKnown =>
      have known : unit.tag ∈ unitOrder := by
        simpa using List.find?_eq_none.mp allKnown unit member
      exact List.mem_flatMap.mpr ⟨unit.tag, known, List.mem_filter.mpr ⟨member, by simp⟩⟩

theorem expected?_filter (units : List GeneratedUnit) (tag : String) :
    expected? (units.filter (·.tag = tag)) tag = expected? units tag := by
  induction units with
  | nil => rfl
  | cons unit rest ih =>
    by_cases same : unit.tag = tag
    · rw [List.filter_cons_of_pos (by simpa using same), expected?_cons, expected?_cons, ih]
    · rw [List.filter_cons_of_neg (by simpa using same), expected?_cons, ih, if_neg same,
        Option.or_none]

/-- Bringing units into their order changes no content. -/
theorem expected?_ordered (sorted : orderUnits units = .ok ordered) (known : tag ∈ unitOrder) :
    expected? ordered tag = expected? units tag := by
  have others (other : String) (apart : other ≠ tag) :
      (units.filter (·.tag = other)).filter (·.tag = tag) = [] := by
    rw [List.filter_eq_nil_iff]
    intro unit member
    have own : unit.tag = other := by simpa using (List.mem_filter.mp member).2
    simpa [own] using apart
  have same : ordered.filter (·.tag = tag) = units.filter (·.tag = tag) := by
    rw [orderUnits_ok sorted, unitOrder]
    simp only [List.flatMap_cons, List.flatMap_nil, List.append_nil, List.filter_append]
    have either : tag = markerTag ∨ tag = extensionsTag := by simpa [unitOrder] using known
    rcases either with rfl | rfl
    · rw [others extensionsTag (by decide), List.append_nil, List.filter_filter]
      simp only [Bool.and_self]
    · rw [others markerTag (by decide), List.nil_append, List.filter_filter]
      simp only [Bool.and_self]
  rw [← expected?_filter ordered, same, expected?_filter]

/-- Where the files of the package stand, and what a write does to a store: it makes directories,
touches nothing else but the files of the package, and these get the contents of the units. -/
structure Places (output : Path) (home : Location) (ordered : List GeneratedUnit)
    (store written : Store) : Prop where
  ready : Ready output home written
  alters : Alters (fun location => Made store written location ∨ Owned home location) store written
  contents : ∀ tag ∈ unitOrder, written.content? (unitPath output tag) = expected? ordered tag

/-- Some units are written to one directory, once it is made, in which no link may stand for a
file of the package. -/
theorem writeUnits_places (system : store.IsFileSystem) (nonempty : units ≠ [])
    (unlinked : ∀ home, (opened output store).DirectoryAt (packageDirectory output) home →
      Unlinked store home)
    (ran : writeUnits output units store = (.ok result, written)) :
    ∃ ordered home, orderUnits units = .ok ordered ∧
      (opened output store).DirectoryAt (packageDirectory output) home ∧
      Places output home ordered store written := by
  obtain ⟨ordered, sorted, wrote⟩ := writeUnits_eq_ok.mp ran
  have nonempty : ordered ≠ [] := by
    obtain ⟨unit, member⟩ := List.exists_mem_of_ne_nil units nonempty
    exact List.ne_nil_of_mem ((mem_ordered_iff sorted).mpr member)
  obtain ⟨there, wrote⟩ := writeOrdered_opened system nonempty wrote
  obtain ⟨home, found⟩ := Store.isDirectory_iff.mp there
  have opens := opened_alters system output
  have rewrites := Ready.writeOrdered
    ⟨opens.system, found, (unlinked home found).opened system output⟩
    (fun unit member => (mem_orderUnits sorted member).2) wrote
  refine ⟨ordered, home, sorted, found, rewrites.ready, ?_, rewrites.contents⟩
  apply (opens.mono fun location made => ?_).trans (rewrites.alters.mono fun _ => .inr)
  exact .inl ⟨made.1, rewrites.alters.directories _ made.2⟩

/-- The check finds nothing out of date when the files have the contents of the units. -/
theorem checkUnits_current (sorted : orderUnits units = .ok ordered)
    (contents : ∀ tag ∈ unitOrder, store.content? (unitPath output tag) = expected? units tag) :
    checkUnits store output units = .ok [] := by
  rw [checkUnits_eq sorted]
  congr 1
  rw [List.filter_eq_nil_iff]
  intro tag member
  simp [contents tag member, expected?_ordered sorted member]

/-- After a write the check finds nothing out of date. -/
theorem Places.checkUnits (places : Places output home ordered store written)
    (sorted : orderUnits units = .ok ordered) : checkUnits written output units = .ok [] :=
  checkUnits_current sorted fun tag member =>
    (places.contents tag member).trans (expected?_ordered sorted member)

end EnumLookup.Package
