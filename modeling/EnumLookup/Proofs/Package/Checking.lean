import EnumLookup.Proofs.Package.Writing

/-!
Checking the package against writing it. Checking compares the same contents as writing, so it
tells what writing changes, and nothing after a write. It does not make the directory of the
package, though: where an output path climbs with `..` from a directory that is still to be made,
writing finds files behind it that checking does not see.
-/
namespace EnumLookup.Package

open Store (ClimbsFromDirectories)

variable {store written : Store} {output : Path} {tag : String}
  {units ordered : List GeneratedUnit} {result : WriteResult}

theorem isCurrent_iff : isCurrent store output units tag = true ↔
    store.content? (unitPath output tag) = expected? units tag := by
  unfold isCurrent expected?
  split
  · next unit found => simp [holds_iff, found]
  · next absent => simp [Store.isFile_eq, absent]

theorem checkUnits_eq (sorted : orderUnits units = .ok ordered) :
    checkUnits store output units = .ok (unitOrder.filter fun tag =>
      store.content? (unitPath output tag) ≠ expected? ordered tag) := by
  simp only [checkUnits, sorted, Except.map, ne_eq, ← isCurrent_iff]
  simp

theorem mem_outdated (sorted : orderUnits units = .ok ordered) {outdated : List String}
    (checked : checkUnits store output units = .ok outdated) : tag ∈ outdated ↔
      tag ∈ unitOrder ∧ store.content? (unitPath output tag) ≠ expected? ordered tag := by
  rw [checkUnits_eq sorted] at checked
  cases checked
  simp

theorem orderUnits_ok (sorted : orderUnits units = .ok ordered) :
    ordered = unitOrder.flatMap fun tag => units.filter (·.tag = tag) := by
  unfold orderUnits at sorted
  split at sorted
  · cases sorted
  · cases sorted
    rfl

theorem mem_orderUnits {unit : GeneratedUnit} (sorted : orderUnits units = .ok ordered)
    (member : unit ∈ ordered) : unit ∈ units ∧ unit.tag ∈ unitOrder := by
  rw [orderUnits_ok sorted] at member
  obtain ⟨tag, known, found⟩ := List.mem_flatMap.mp member
  obtain ⟨inside, same⟩ := List.mem_filter.mp found
  obtain rfl := of_decide_eq_true same
  exact ⟨inside, known⟩

theorem tags_of_tag (distinct : (units.map (·.tag)).Nodup) (tag : String) :
    (units.filter (·.tag = tag)).map (·.tag) =
      if tag ∈ units.map (·.tag) then [tag] else [] := by
  induction units with
  | nil => rfl
  | cons unit rest ih =>
    obtain ⟨fresh, distinct⟩ := List.nodup_cons.mp distinct
    have others := ih distinct
    by_cases same : unit.tag = tag
    · subst same
      rw [if_neg fresh] at others
      simp [others]
    · simp only [List.filter_cons, same, decide_false, Bool.false_eq_true, if_false, others,
        List.map_cons, List.mem_cons, Ne.symm same, false_or]

theorem tags_orderUnits (distinct : (units.map (·.tag)).Nodup)
    (sorted : orderUnits units = .ok ordered) :
    ordered.map (·.tag) = unitOrder.filter fun tag => tag ∈ units.map (·.tag) := by
  rw [orderUnits_ok sorted, List.map_flatMap]
  simp only [tags_of_tag distinct]
  induction unitOrder with
  | nil => rfl
  | cons tag rest ih =>
    by_cases emitted : tag ∈ units.map (·.tag)
    · simp only [List.flatMap_cons, ih, emitted, if_true, List.filter_cons_of_pos, decide_true,
        List.singleton_append]
    · simp only [List.flatMap_cons, ih, emitted, if_false, List.filter_cons, decide_false,
        Bool.false_eq_true, List.nil_append]

theorem writeUnits_eq_ok : writeUnits output units store = (.ok result, written) ↔
    ∃ ordered, orderUnits units = .ok ordered ∧
      writeOrdered output ordered store = (.ok result, written) := by
  unfold writeUnits
  cases orderUnits units with
  | error error => simp
  | ok ordered =>
    cases ran : writeOrdered output ordered store with
    | mk outcome after =>
      cases outcome with
      | error error => simp [ran, Except.mapError]
      | ok result => simp [ran, Except.mapError]

theorem changed_iff_exists :
    result.changed = true ↔ ∃ tag, ∃ file ∈ result.files, file.filename = tag ∧
      file.status ≠ .unchanged := by
  simp [WriteResult.changed]

/-- Checking before a write that succeeds tells which files the write changes, unless the output
path climbs with dots from a directory that is missing while units are to be written; after the
write it tells none, and writing once more changes nothing. -/
theorem writeUnits_agrees_with_check (tree : store.IsTree)
    (distinct : (units.map (·.tag)).Nodup)
    (ran : writeUnits output units store = (.ok result, written)) :
    ((units ≠ [] → store.ClimbsFromDirectories output) →
      ∃ outdated, checkUnits store output units = .ok outdated ∧
        (∀ tag, tag ∈ outdated ↔
          ∃ file ∈ result.files, file.filename = tag ∧ file.status ≠ .unchanged) ∧
        (result.changed = true ↔ outdated ≠ [])) ∧
    checkUnits written output units = .ok [] ∧
    ∃ again, writeUnits output units written = (.ok again, written) ∧
      statuses again.files = (unitOrder.filter fun tag => tag ∈ units.map (·.tag)).map
        fun tag => (tag, .unchanged) := by
  obtain ⟨ordered, sorted, wrote⟩ := writeUnits_eq_ok.mp ran
  have tags := tags_orderUnits distinct sorted
  have known : ∀ unit ∈ ordered, unit.tag ∈ unitOrder := fun unit member =>
    (mem_orderUnits sorted member).2
  have once : (ordered.map (·.tag)).Nodup := by
    rw [tags]
    exact List.Pairwise.filter _ (by decide)
  obtain ⟨middle, grows, same, there, wrote⟩ := writeOrdered_prepared tree wrote
  have updates := writeOrdered_updates grows.tree there known once wrote
  refine ⟨fun climbs => ?_, ?_, ?_⟩
  · -- The files that are there when the directory of the package is made were there before.
    have kept : ∀ tag ∈ unitOrder,
        middle.content? (unitPath output tag) = store.content? (unitPath output tag) := by
      intro tag member
      by_cases empty : ordered = []
      · rw [same empty]
      · obtain ⟨unit, inside⟩ := List.exists_mem_of_ne_nil ordered empty
        have some : units ≠ [] := List.ne_nil_of_mem (mem_orderUnits sorted inside).1
        exact grows.content?_child tree ((climbs some).child (by decide)) (proper_of_known member)
    have agrees : ∀ tag, tag ∈ unitOrder.filter (fun tag =>
        store.content? (unitPath output tag) ≠ expected? ordered tag) ↔
        ∃ file ∈ result.files, file.filename = tag ∧ file.status ≠ .unchanged := by
      intro tag
      rw [updates.changed, mem_outdated sorted (checkUnits_eq sorted)]
      exact and_congr_right fun member => by rw [kept tag member]
    refine ⟨_, checkUnits_eq sorted, agrees, ?_⟩
    rw [changed_iff_exists, ← exists_congr agrees]
    constructor
    · rintro ⟨tag, member⟩
      exact List.ne_nil_of_mem member
    · exact List.exists_mem_of_ne_nil _
  · rw [checkUnits_eq sorted]
    congr 1
    rw [List.filter_eq_nil_iff]
    intro tag member
    simp [updates.contents tag member]
  · obtain ⟨again, wrote, unchanged⟩ :=
      writeOrdered_current updates.tree updates.there known once updates.contents
    rw [tags] at unchanged
    exact ⟨again, writeUnits_eq_ok.mpr ⟨ordered, sorted, wrote⟩, unchanged⟩

def packageStore (directory tag : String) (bytes : List UInt8) : Store where
  entries :=
    [([directory], .directory), ([directory, generatedPackage], .directory),
     ([directory, generatedPackage, tag], .file bytes)]

theorem exists_of_statuses {reported : List (String × FileStatus)}
    (ran : (writeUnits output units store).1.map (statuses ·.files) = .ok reported) :
    ∃ result written, writeUnits output units store = (.ok result, written) ∧
      statuses result.files = reported := by
  revert ran
  rcases writeUnits output units store with ⟨error | result, written⟩
  · nofun
  · intro ran
    exact ⟨result, written, rfl, Except.ok.inj ran⟩

def shortMarker : GeneratedUnit := ⟨markerTag, "m\n"⟩

/-- The path goes up from a directory that is there; one file is missing and one is left over. -/
theorem writeUnits_agrees_with_check_leftover :
    let store := packageStore "out" extensionsTag [1]
    let output : Path := ⟨0, ["out", "..", "out"]⟩
    ∃ result written, writeUnits output [shortMarker] store = (.ok result, written) ∧
      statuses result.files = [(markerTag, .written), (extensionsTag, .removed)] ∧
      (∃ outdated, checkUnits store output [shortMarker] = .ok outdated ∧
        (∀ tag, tag ∈ outdated ↔
          ∃ file ∈ result.files, file.filename = tag ∧ file.status ≠ .unchanged) ∧
        (result.changed = true ↔ outdated ≠ [])) ∧
      checkUnits written output [shortMarker] = .ok [] ∧
      ∃ again, writeUnits output [shortMarker] written = (.ok again, written) ∧
        statuses again.files = [(markerTag, .unchanged)] := by
  intro store output
  have tree : store.IsTree := by decide +kernel
  have climbs : store.ClimbsFromDirectories output := by decide +kernel
  have reported : (writeUnits output [shortMarker] store).1.map (statuses ·.files) =
      .ok [(markerTag, .written), (extensionsTag, .removed)] := by decide +kernel
  obtain ⟨result, written, ran, reported⟩ := exists_of_statuses reported
  obtain ⟨agrees, current, again⟩ := writeUnits_agrees_with_check tree (by decide) ran
  exact ⟨result, written, ran, reported, agrees fun _ => climbs, current, again⟩

/-- The file is as it should be, but the path to it climbs from a directory that is not there. -/
theorem check_misses_behind_missing :
    let store := packageStore "b" markerTag (utf8 shortMarker.text)
    let output : Path := ⟨0, ["a", "..", "b"]⟩
    store.IsTree ∧ ([shortMarker].map (·.tag)).Nodup ∧
      checkUnits store output [shortMarker] = .ok [markerTag] ∧
      ∃ result written, writeUnits output [shortMarker] store = (.ok result, written) ∧
        statuses result.files = [(markerTag, .unchanged)] ∧ result.changed = false := by
  intro store output
  have tree : store.IsTree := by decide +kernel
  have missed : checkUnits store output [shortMarker] = .ok [markerTag] := by decide +kernel
  have reported : (writeUnits output [shortMarker] store).1.map (statuses ·.files) =
      .ok [(markerTag, .unchanged)] := by decide +kernel
  obtain ⟨result, written, ran, reported⟩ := exists_of_statuses reported
  refine ⟨tree, by decide, missed, result, written, ran, reported, ?_⟩
  rw [Bool.eq_false_iff]
  intro changed
  obtain ⟨tag, differs⟩ := changed_iff_exists.mp changed
  obtain ⟨status, member, differs⟩ := exists_changed_iff.mp differs
  rw [reported, List.mem_singleton] at member
  exact differs (Prod.mk.inj member).2

end EnumLookup.Package
