import EnumLookup.Proofs.Package.Placing
import EnumLookup.Proofs.Text.Utf8
import Mathlib

/-!
What a write of the package comes to. The package is a function of its units: nothing of what was in
it before is left, and nothing else is touched. The results tell what is on disk. An unknown tag is
found before anything is done.
-/
namespace EnumLookup.Package

open Store (Alters IsFileSystem Made OnWay Way)

variable {store middle after written : Store} {output : Path} {home : Location} {tag : String}
  {tags : List String} {unit : GeneratedUnit} {units ordered : List GeneratedUnit}
  {file : FileResult} {files : List FileResult} {result : WriteResult}

structure Reports (output : Path) (written : Store) (unit : GeneratedUnit) (file : FileResult) :
    Prop where
  filename : file.filename = unit.tag
  path : file.path = written.resolved (unitPath output unit.tag)
  lines : file.lineCount = lineCount unit.text
  bytes : file.byteCount = (utf8 unit.text).length
  status : file.status = .written ∨ file.status = .unchanged

def removal (output : Path) (written : Store) (tag : String) : FileResult :=
  ⟨tag, written.resolved (unitPath output tag), 0, 0, .removed⟩

/-- There was a file at the place where the file of the tag belongs after the write. -/
def wasThere (output : Path) (store written : Store) (tag : String) : Bool :=
  match written.locate (unitPath output tag) with
  | .ok location => (bytesAt store location).isSome
  | .error _ => false

def linesOf (output : Path) (store : Store) (tag : String) : Nat :=
  ((store.content? (unitPath output tag)).getD []).count 10

theorem Ready.resolved_eq (ready : Ready output home store) (final : Ready output home written)
    (known : tag ∈ unitOrder) :
    store.resolved (unitPath output tag) = written.resolved (unitPath output tag) := by
  simp only [Store.resolved, ready.locate known, final.locate known]

theorem writeChanged_status {path : Path} {bytes : List UInt8} {status : FileStatus}
    (ran : writeChanged path bytes store = (.ok status, after)) :
    status = .written ∨ status = .unchanged := by
  unfold writeChanged at ran
  split at ran
  · cases ran
    exact .inr rfl
  · split at ran
    · cases ran
      exact .inl rfl
    · cases ran

theorem Ready.writeKnown_reports (ready : Ready output home store)
    (final : Ready output home written) (known : unit.tag ∈ unitOrder)
    (ran : Package.writeKnown output unit store = (.ok file, after)) :
    Reports output written unit file := by
  have path := (ready.writeKnown known ran).ready.resolved_eq final known
  unfold Package.writeKnown at ran
  split at ran
  · cases ran
  · dsimp only at ran
    split at ran
    · cases ran
    · next status stored wrote =>
      cases ran
      exact ⟨rfl, path, rfl, rfl, writeChanged_status wrote⟩

theorem Ready.writeAll_reports (ready : Ready output home store)
    (final : Ready output home written) (known : ∀ unit ∈ units, unit.tag ∈ unitOrder)
    (ran : Package.writeAll output units store = (.ok files, after)) :
    List.Forall₂ (Reports output written) units files := by
  induction units generalizing store files with
  | nil =>
    cases ran
    exact .nil
  | cons unit rest ih =>
    obtain ⟨knownUnit, known⟩ := List.forall_mem_cons.mp known
    unfold Package.writeAll at ran
    split at ran
    · cases ran
    · next file middle wrote =>
      rcases ranRest : Package.writeAll output rest middle with ⟨error | others, last⟩
      · rw [ranRest] at ran
        cases ran
      · rw [ranRest] at ran
        cases ran
        exact .cons (ready.writeKnown_reports final knownUnit wrote)
          (ih (ready.writeKnown knownUnit wrote).ready known ranRest)

/-- The files that are removed are those that are there, in the order of their tags. -/
theorem Ready.removeStale_files (ready : Ready output home store)
    (final : Ready output home written) (known : ∀ tag ∈ tags, tag ∈ unitOrder)
    (distinct : tags.Nodup) (ran : Package.removeStale output tags store = (.ok files, after)) :
    files = (tags.filter fun tag => (store.content? (unitPath output tag)).isSome).map
      (removal output written) := by
  induction tags generalizing store files with
  | nil =>
    cases ran
    rfl
  | cons tag rest ih =>
    obtain ⟨knownTag, known⟩ := List.forall_mem_cons.mp known
    obtain ⟨fresh, distinct⟩ := List.nodup_cons.mp distinct
    by_cases there : store.isFile (unitPath output tag) = true
    · obtain ⟨middle, unlinked, first⟩ := ready.unlink knownTag there
      have kept : ∀ other ∈ rest, (middle.content? (unitPath output other)).isSome =
          (store.content? (unitPath output other)).isSome := by
        intro other member
        have apart : other ≠ tag := by
          rintro rfl
          exact fresh member
        rw [first.contents other (known other member), if_neg apart]
      simp only [Package.removeStale, there, unlinked, if_true] at ran
      rcases ranRest : Package.removeStale output rest middle with ⟨error | others, last⟩
      · rw [ranRest] at ran
        cases ran
      · rw [ranRest] at ran
        cases ran
        rw [Store.isFile_eq] at there
        simp only [List.filter_cons, there, if_true, List.map_cons, removal]
        rw [← List.filter_congr kept, ← ih first.ready known distinct ranRest,
          first.ready.resolved_eq final knownTag]
    · simp only [Package.removeStale, there, Bool.false_eq_true, if_false] at ran
      rw [Store.isFile_eq] at there
      simp only [List.filter_cons, there, Bool.false_eq_true, if_false]
      exact ih ready known distinct ran

/-- The results of a write into a directory that is there: the units in their order, then the files
that were left over. -/
theorem Ready.writeOrdered_files (ready : Ready output home store)
    (known : ∀ unit ∈ ordered, unit.tag ∈ unitOrder)
    (ran : Package.writeOrdered output ordered store = (.ok result, written)) :
    result.outputDirectory = output ∧ ∃ emitted,
      result.files = emitted ++ ((staleTags ordered).filter fun tag =>
        (store.content? (unitPath output tag)).isSome).map (removal output written) ∧
      List.Forall₂ (Reports output written) ordered emitted := by
  have final := (ready.writeOrdered known ran).ready
  unfold Package.writeOrdered at ran
  split at ran
  · cases ran
  · next emitted middle wrote =>
    have writes := ready.writeAll known wrote
    have stale : ∀ tag ∈ staleTags ordered, tag ∈ unitOrder := fun tag member =>
      (mem_staleTags.mp member).1
    have once : (staleTags ordered).Nodup := List.Pairwise.filter _ (by decide)
    -- A tag without a unit has the file it had before the units were written.
    have kept : ∀ tag ∈ staleTags ordered, (middle.content? (unitPath output tag)).isSome =
        (store.content? (unitPath output tag)).isSome := by
      intro tag member
      rw [writes.contents tag (stale tag member),
        expected?_eq_none.mpr (mem_staleTags.mp member).2, Option.none_or]
    obtain ⟨removed, last, ranStale, -⟩ := writes.ready.removeStale stale
    rw [ranStale] at ran
    cases ran
    refine ⟨rfl, emitted, ?_, ready.writeAll_reports final known wrote⟩
    rw [← List.filter_congr kept, ← writes.ready.removeStale_files final stale once ranStale]

/-- A write starts by making the directory of the package, and goes on as if it had been there.
Without units nothing is made; if the directory is not there then, nothing is done. -/
theorem writeOrdered_ready (system : store.IsFileSystem)
    (linkless : ∀ location target, store.entry? location ≠ some (.link target))
    (ran : writeOrdered output ordered store = (.ok result, written)) :
    (∃ home middle, Ready output home middle ∧ Alters (Made store middle) store middle ∧
      Way (packageDirectory output) store middle ∧
      writeOrdered output ordered middle = (.ok result, written)) ∨
    (ordered = [] ∧ ∀ home, ¬store.DirectoryAt (packageDirectory output) home) := by
  have unlinked (home : Location) : Unlinked store home := fun tag _ target => linkless _ target
  by_cases empty : ordered = []
  · by_cases there : ∃ home, store.DirectoryAt (packageDirectory output) home
    · obtain ⟨home, found⟩ := there
      exact .inl ⟨home, store, ⟨system, found, unlinked home⟩, system.alters _,
        fun _ made => absurd made Store.not_made_self, ran⟩
    · exact .inr ⟨empty, not_exists.mp there⟩
  · obtain ⟨there, wrote⟩ := writeOrdered_opened system empty ran
    obtain ⟨home, found⟩ := Store.isDirectory_iff.mp there
    have opens := opened_alters system output
    exact .inl ⟨home, opened output store,
      ⟨opens.system, found, (unlinked home).opened system output⟩, opens,
      system.makeDirectories_way (packageDirectory output), wrote⟩

/-- What the package and the results are after a write that succeeds. -/
structure Outcome (output : Path) (units : List GeneratedUnit) (store : Store)
    (result : WriteResult) (written : Store) : Prop where
  /-- Each file has the bytes of the last unit of its tag; without a unit there is none. -/
  contents : ∀ tag ∈ unitOrder, written.content? (unitPath output tag) = expected? units tag
  /-- Nothing else is different but the directories that were made on the way to the package. -/
  untouched : ∀ location, written.entry? location = store.entry? location ∨
    (Made store written location ∧ OnWay (packageDirectory output) written location) ∨
    ∃ tag ∈ unitOrder, written.locate (unitPath output tag) = .ok location
  directory : result.outputDirectory = output
  /-- The results are those of the units, tag by tag, and then those of the files removed. -/
  reported : ∃ emitted,
    result.files = emitted ++ ((staleTags units).filter (wasThere output store written)).map
      (removal output written) ∧
    List.Forall₂ (Reports output written)
      (unitOrder.flatMap fun tag => units.filter (·.tag = tag)) emitted

theorem staleTags_ordered (sorted : orderUnits units = .ok ordered) :
    staleTags ordered = staleTags units := by
  refine List.filter_congr fun tag _ => ?_
  have same : (ordered.any (·.tag = tag)) = units.any (·.tag = tag) := by
    rw [Bool.eq_iff_iff, List.any_eq_true, List.any_eq_true]
    exact exists_congr fun unit => and_congr_left fun _ => mem_ordered_iff sorted
  rw [same]

theorem bytesAt_alters (alters : Alters (Made store middle) store middle) (location : Location) :
    bytesAt middle location = bytesAt store location := by
  unfold bytesAt
  by_cases made : Made store middle location
  · rw [made.1, made.2]
  · rw [alters.entry?_eq made]

theorem Ready.outcome (ready : Ready output home middle)
    (alters : Alters (Made store middle) store middle)
    (way : Way (packageDirectory output) store middle) (sorted : orderUnits units = .ok ordered)
    (ran : Package.writeOrdered output ordered middle = (.ok result, written)) :
    Outcome output units store result written := by
  have known : ∀ unit ∈ ordered, unit.tag ∈ unitOrder := fun unit member =>
    (mem_orderUnits sorted member).2
  have rewrites := ready.writeOrdered known ran
  obtain ⟨directory, emitted, files, reports⟩ := ready.writeOrdered_files known ran
  rw [orderUnits_ok sorted] at reports
  refine ⟨fun tag member => ?_, fun location => ?_, directory, emitted, ?_, reports⟩
  · rw [rewrites.contents tag member, expected?_ordered sorted member]
  · by_cases owned : Owned home location
    · obtain ⟨tag, member, rfl⟩ := owned
      exact .inr (.inr ⟨tag, member, rewrites.ready.locate member⟩)
    · rw [rewrites.alters.entry?_eq owned]
      by_cases made : Made store middle location
      · obtain ⟨above, inPath, found⟩ := way location made
        exact .inr (.inl ⟨⟨made.1, rewrites.alters.directories _ made.2⟩, above, inPath,
          rewrites.alters.keeps.directoryAt found⟩)
      · exact .inl (alters.entry?_eq made)
  · rw [files, staleTags_ordered sorted]
    congr 2
    refine List.filter_congr fun tag member => ?_
    have knownTag := (mem_staleTags.mp member).1
    rw [ready.content? knownTag, bytesAt_alters alters, wasThere,
      rewrites.ready.locate knownTag]

theorem wasThere_self (output : Path) (store : Store) (tag : String) :
    wasThere output store store tag = (store.content? (unitPath output tag)).isSome := by
  unfold wasThere Store.content? Store.find?
  cases store.locate (unitPath output tag) with
  | error fault => rfl
  | ok location => rfl

theorem absent_outcome (sorted : orderUnits units = .ok [])
    (absent : ∀ tag ∈ unitOrder, store.content? (unitPath output tag) = none)
    (ran : writeOrdered output [] store = (.ok result, written)) :
    Outcome output units store result written := by
  have stale : ∀ tag ∈ staleTags [], store.content? (unitPath output tag) = none :=
    fun tag member => absent tag (mem_staleTags.mp member).1
  simp only [writeOrdered, writeAll, removeStale_absent stale, Except.map] at ran
  cases ran
  refine ⟨fun tag member => ?_, fun location => .inl rfl, rfl, [], ?_, ?_⟩
  · rw [absent tag member, ← expected?_ordered sorted member]
    rfl
  · have none : (staleTags units).filter (wasThere output store store) = [] := by
      rw [List.filter_eq_nil_iff]
      intro tag member
      simp [wasThere_self, absent tag (mem_staleTags.mp member).1]
    rw [none]
    rfl
  · rw [← orderUnits_ok sorted]
    exact .nil

theorem writeUnits_outcome (system : store.IsFileSystem)
    (linkless : ∀ location target, store.entry? location ≠ some (.link target))
    (ran : writeUnits output units store = (.ok result, written)) :
    Outcome output units store result written := by
  obtain ⟨ordered, sorted, wrote⟩ := writeUnits_eq_ok.mp ran
  rcases writeOrdered_ready system linkless wrote with
    ⟨home, middle, ready, alters, way, wrote⟩ | ⟨rfl, missing⟩
  · exact ready.outcome alters way sorted wrote
  · have tree : store.IsTree := ⟨linkless, system.rooted⟩
    refine absent_outcome sorted (fun tag member => ?_) wrote
    rw [Option.eq_none_iff_forall_ne_some]
    intro bytes content
    obtain ⟨home, found, -⟩ := (tree.content?_child (proper_of_known member)).mp content
    exact missing home found

/-! The counts of the results, when no tag is repeated. -/

theorem count_expected? (distinct : (units.map (·.tag)).Nodup) (tag : String) :
    ((units.filter (·.tag = tag)).map fun unit => lineCount unit.text).sum =
      ((expected? units tag).getD []).count 10 := by
  have tags := tags_of_tag distinct tag
  rw [← expected?_filter]
  cases group : units.filter (·.tag = tag) with
  | nil => rfl
  | cons unit rest =>
    rw [group] at tags
    split at tags
    · obtain ⟨same, none⟩ := List.cons.inj tags
      obtain rfl := List.map_eq_nil_iff.mp none
      simp [expected?, same, Encoding.count_utf8, lineCount]
    · cases tags

theorem lines_of_reports (reports : List.Forall₂ (Reports output written) units files) :
    files.map (·.lineCount) = units.map fun unit => lineCount unit.text := by
  induction reports with
  | nil => rfl
  | cons first _ ih => rw [List.map_cons, List.map_cons, first.lines, ih]

theorem lines_of_removals (tags : List String) :
    ((tags.map (removal output written)).map (·.lineCount)).sum = 0 := by
  induction tags with
  | nil => rfl
  | cons tag rest ih => simpa [removal] using ih

theorem Outcome.totalLines (outcome : Outcome output units store result written)
    (distinct : (units.map (·.tag)).Nodup) :
    result.totalLines = (unitOrder.map (linesOf output written)).sum := by
  obtain ⟨emitted, files, reports⟩ := outcome.reported
  have perTag : unitOrder.map (linesOf output written) = unitOrder.map fun tag =>
      ((units.filter (·.tag = tag)).map fun unit => lineCount unit.text).sum := by
    refine List.map_congr_left fun tag member => ?_
    rw [count_expected? distinct, linesOf, outcome.contents tag member]
  rw [WriteResult.totalLines, ← List.sum_eq_foldl, files, List.map_append, List.sum_append,
    lines_of_removals, lines_of_reports reports, perTag, List.map_flatMap, List.flatMap,
    List.sum_flatten, List.map_map]
  rfl

theorem mem_of_reports (reports : List.Forall₂ (Reports output written) units files)
    (member : file ∈ files) : ∃ unit ∈ units, Reports output written unit file := by
  induction reports with
  | nil => cases member
  | cons first _ ih =>
    rcases List.mem_cons.mp member with rfl | later
    · exact ⟨_, List.mem_cons_self .., first⟩
    · obtain ⟨unit, inside, report⟩ := ih later
      exact ⟨unit, List.mem_cons_of_mem _ inside, report⟩

/-- The counts of an emitted result are those of the file on disk. -/
theorem Outcome.counts (outcome : Outcome output units store result written)
    (distinct : (units.map (·.tag)).Nodup) (member : file ∈ result.files)
    (emitted : file.status ≠ .removed) :
    ∃ bytes, written.content? (unitPath output file.filename) = some bytes ∧
      file.byteCount = bytes.length ∧ file.lineCount = bytes.count 10 := by
  obtain ⟨files, same, reports⟩ := outcome.reported
  rw [same] at member
  rcases List.mem_append.mp member with written | removed
  · obtain ⟨unit, inOrder, report⟩ := mem_of_reports reports written
    obtain ⟨tag, known, found⟩ := List.mem_flatMap.mp inOrder
    obtain ⟨inside, own⟩ := List.mem_filter.mp found
    obtain rfl := of_decide_eq_true own
    refine ⟨utf8 unit.text, ?_, report.bytes, ?_⟩
    · rw [report.filename, outcome.contents _ known, expected?_of_mem distinct inside]
    · rw [report.lines, Encoding.count_utf8, lineCount]
  · obtain ⟨tag, -, rfl⟩ := List.mem_map.mp removed
    exact absurd rfl emitted

/-- A unit with an unknown tag stops a write and a check before they do anything. -/
theorem unknownTag_stops (store : Store) (output : Path) (member : unit ∈ units)
    (unknown : unit.tag ∉ unitOrder) :
    ∃ first ∈ units, first.tag ∉ unitOrder ∧
      writeUnits output units store = (.error (.unknownTag first.tag), store) ∧
      checkUnits store output units = .error (.unknownTag first.tag) := by
  cases found : units.find? fun unit => !unitOrder.contains unit.tag with
  | none =>
    have known := List.find?_eq_none.mp found unit member
    simp [unknown] at known
  | some first =>
    have foreign : first.tag ∉ unitOrder := by simpa using List.find?_some found
    refine ⟨first, List.mem_of_find?_eq_some found, foreign, ?_, ?_⟩
    · simp only [writeUnits, orderUnits, found]
    · simp only [checkUnits, orderUnits, found, Except.map]

/-- Writing makes the package a function of its units. An unknown tag stops it, and a check, before
anything is done. When it succeeds, each file has the bytes of the last unit of its tag, no file is
left of a tag without a unit, and everything else is as it was, directories on the way to the
package apart; the results are those of the units in their order and then those of the files
removed. When no tag is repeated, their counts are those of the files on disk. -/
theorem writeUnits_makes_package (system : store.IsFileSystem)
    (linkless : ∀ location target, store.entry? location ≠ some (.link target))
    (output : Path) (units : List GeneratedUnit) :
    (∀ unit ∈ units, unit.tag ∉ unitOrder → ∃ first ∈ units, first.tag ∉ unitOrder ∧
      writeUnits output units store = (.error (.unknownTag first.tag), store) ∧
      checkUnits store output units = .error (.unknownTag first.tag)) ∧
    ∀ result written, writeUnits output units store = (.ok result, written) →
      Outcome output units store result written ∧
      ((units.map (·.tag)).Nodup →
        (∀ file ∈ result.files, file.status ≠ .removed → ∃ bytes,
          written.content? (unitPath output file.filename) = some bytes ∧
          file.byteCount = bytes.length ∧ file.lineCount = bytes.count 10) ∧
        result.totalLines = (unitOrder.map (linesOf output written)).sum) := by
  refine ⟨fun unit member unknown => unknownTag_stops store output member unknown,
    fun result written ran => ?_⟩
  have outcome := writeUnits_outcome system linkless ran
  exact ⟨outcome, fun distinct =>
    ⟨fun file member emitted => outcome.counts distinct member emitted,
      outcome.totalLines distinct⟩⟩

/-- Two units in the other order, into a package with a file of one of them; and a unit that no
package has. -/
theorem writeUnits_makes_package_reversed :
    let store := packageStore "out" extensionsTag [1]
    let output : Path := ⟨0, ["out"]⟩
    let units : List GeneratedUnit := [⟨extensionsTag, "x\n\n"⟩, shortMarker]
    let foreign : GeneratedUnit := ⟨"other.py", ""⟩
    store.IsFileSystem ∧ store.IsTree ∧
      writeUnits output [shortMarker, foreign] store = (.error (.unknownTag "other.py"), store) ∧
      ∃ result written, writeUnits output units store = (.ok result, written) ∧
        statuses result.files = [(markerTag, .written), (extensionsTag, .written)] ∧
        Outcome output units store result written ∧ result.totalLines = 3 := by
  intro store output units foreign
  have system : store.IsFileSystem := by decide +kernel
  have tree : store.IsTree := by decide +kernel
  have reported : (writeUnits output units store).1.map (statuses ·.files) =
      .ok [(markerTag, .written), (extensionsTag, .written)] := by decide +kernel
  obtain ⟨result, written, ran, reported⟩ := exists_of_statuses reported
  obtain ⟨-, succeeds⟩ := writeUnits_makes_package system tree.unlinked output units
  obtain ⟨outcome, counts⟩ := succeeds result written ran
  obtain ⟨stops, -⟩ :=
    writeUnits_makes_package system tree.unlinked output [shortMarker, foreign]
  obtain ⟨first, member, unknown, stopped, -⟩ :=
    stops foreign (by simp) (by decide)
  refine ⟨system, tree, ?_, result, written, ran, reported, outcome, ?_⟩
  · simp only [List.mem_cons, List.not_mem_nil, or_false] at member
    rcases member with rfl | rfl
    · exact absurd unknown (by decide)
    · exact stopped
  · rw [(counts (by decide)).2]
    have marker := outcome.contents markerTag (by decide)
    have extensions := outcome.contents extensionsTag (by decide)
    simp only [unitOrder, List.map_cons, List.map_nil, linesOf, marker, extensions]
    decide +kernel

end EnumLookup.Package
