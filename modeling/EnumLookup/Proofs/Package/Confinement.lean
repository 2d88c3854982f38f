import EnumLookup.Proofs.Package.Placing
import EnumLookup.Proofs.Store.Disturbances

/-!
What a write of the package can change, whether it succeeds or not. The directories on the way to
the package are made, and then files are written and removed at the places of the package: where its
files stand, and where they lead if they are links. Everything else stays.
-/
namespace EnumLookup.Package

open Store (DirectoryAt Disturbs IsDisk Made OnWay)

variable {store after reached : Store} {output : Path} {home location : Location} {tag : String}
  {tags : List String} {unit : GeneratedUnit} {units ordered : List GeneratedUnit}
  {result : WriteResult}

def PlaceIn (output : Path) (store : Store) (location : Location) : Prop :=
  ∃ tag ∈ unitOrder, store.locateEntry (unitPath output tag) = .ok location ∨
    store.locate (unitPath output tag) = .ok location

def PackagePlace (output : Path) (store : Store) (location : Location) : Prop :=
  PlaceIn output (opened output store) location

theorem locateEntry_unit (known : tag ∈ unitOrder) :
    store.locateEntry (unitPath output tag) = .ok location ↔
      ∃ home, store.DirectoryAt (packageDirectory output) home ∧ location = home ++ [tag] :=
  Store.locateEntry_child_iff (proper_of_known known)

/-- Without links, the places of the package are those of its files. -/
theorem packagePlace_iff_owned (system : store.IsFileSystem)
    (found : (opened output store).DirectoryAt (packageDirectory output) home)
    (unlinked : Unlinked store home) :
    PackagePlace output store location ↔ Owned home location := by
  have ready : Ready output home (opened output store) :=
    ⟨(opened_alters system output).system, found, unlinked.opened system output⟩
  constructor
  · rintro ⟨tag, known, standing | located⟩
    · obtain ⟨directory, also, rfl⟩ := (locateEntry_unit known).mp standing
      exact ⟨tag, known, by rw [found.unique also]⟩
    · rw [ready.locate known] at located
      exact ⟨tag, known, (Except.ok.inj located).symm⟩
  · rintro ⟨tag, known, rfl⟩
    exact ⟨tag, known, .inr (ready.locate known)⟩

/-! Steps of a write, after the directory is made. -/

section

variable (disturbs : Disturbs (PlaceIn output store) store reached)
include disturbs

theorem write_disturbs (known : tag ∈ unitOrder) {bytes : List UInt8}
    (wrote : reached.write (unitPath output tag) bytes = .ok after) :
    Disturbs (PlaceIn output store) store after := by
  unfold Store.write at wrote
  split at wrote
  · cases wrote
  · next place located =>
    split at wrote
    · cases wrote
    · next noDirectory =>
      cases wrote
      have step := disturbs.disk.put_disturbs located noDirectory bytes
      refine disturbs.trans (step.mono ?_)
      rintro _ rfl
      rcases disturbs.ends _ _ located with before | place
      · exact ⟨tag, known, .inr before⟩
      · exact place

theorem unlink_disturbs (known : tag ∈ unitOrder)
    (isFile : reached.isFile (unitPath output tag) = true)
    (unlinked : reached.unlink (unitPath output tag) = .ok after) :
    Disturbs (PlaceIn output store) store after := by
  unfold Store.unlink at unlinked
  split at unlinked
  · cases unlinked
  · next place standing =>
    obtain ⟨home, found, rfl⟩ := (locateEntry_unit known).mp standing
    obtain ⟨bytes, content⟩ := Option.isSome_iff_exists.mp ((reached.isFile_eq _).symm.trans isFile)
    obtain ⟨target, located, file⟩ : ∃ target, reached.locate (unitPath output tag) = .ok target ∧
        reached.entry? target = some (.file bytes) := by
      rw [Store.content?_eq_some, Store.find?] at content
      split at content
      · next target located => exact ⟨target, located, content⟩
      · cases content
    split at unlinked
    · cases unlinked
    · next entry noDirectory present =>
      cases unlinked
      have step := disturbs.disk.erase_disturbs found located file (by
        rw [present]
        exact fun same => noDirectory (Option.some.inj same))
      refine disturbs.trans (step.mono ?_)
      rintro _ rfl
      refine ⟨tag, known, .inl ((locateEntry_unit known).mpr ⟨home, ?_, rfl⟩)⟩
      exact (disturbs.directories _ _).mp found
    · cases unlinked

theorem writeKnown_disturbs (found : store.DirectoryAt (packageDirectory output) home)
    (known : unit.tag ∈ unitOrder) :
    Disturbs (PlaceIn output store) store (writeKnown output unit reached).2 := by
  have there := Store.isDirectory_iff.mpr ⟨home, (disturbs.directories _ _).mpr found⟩
  simp only [writeKnown, disturbs.disk.makeDirectories_there there, writeChanged]
  by_cases held : holds reached (unitPath output unit.tag) (utf8 unit.text) = true
  · simpa only [held, if_true] using disturbs
  · simp only [held, Bool.false_eq_true, if_false]
    cases wrote : reached.write (unitPath output unit.tag) (utf8 unit.text) with
    | error error => exact disturbs
    | ok written => exact write_disturbs disturbs known wrote

end

theorem writeAll_disturbs (disturbs : Disturbs (PlaceIn output store) store reached)
    (found : store.DirectoryAt (packageDirectory output) home)
    (known : ∀ unit ∈ units, unit.tag ∈ unitOrder) :
    Disturbs (PlaceIn output store) store (writeAll output units reached).2 := by
  induction units generalizing reached with
  | nil => exact disturbs
  | cons unit rest ih =>
    obtain ⟨knownUnit, known⟩ := List.forall_mem_cons.mp known
    have first := writeKnown_disturbs disturbs found knownUnit
    unfold writeAll
    revert first
    rcases writeKnown output unit reached with ⟨error | file, middle⟩
    · exact id
    · exact fun first => ih first known

theorem removeStale_disturbs (disturbs : Disturbs (PlaceIn output store) store reached)
    (known : ∀ tag ∈ tags, tag ∈ unitOrder) :
    Disturbs (PlaceIn output store) store (removeStale output tags reached).2 := by
  induction tags generalizing reached with
  | nil => exact disturbs
  | cons tag rest ih =>
    obtain ⟨knownTag, known⟩ := List.forall_mem_cons.mp known
    simp only [removeStale]
    split
    · next isFile =>
      cases unlinked : reached.unlink (unitPath output tag) with
      | error error => exact disturbs
      | ok removed => exact ih (unlink_disturbs disturbs knownTag isFile unlinked) known
    · exact ih disturbs known

theorem writeOrdered_disturbs (disk : store.IsDisk)
    (found : store.DirectoryAt (packageDirectory output) home)
    (known : ∀ unit ∈ ordered, unit.tag ∈ unitOrder) :
    Disturbs (PlaceIn output store) store (writeOrdered output ordered store).2 := by
  have written := writeAll_disturbs (disk.disturbs _) found known
  unfold writeOrdered
  revert written
  rcases writeAll output ordered store with ⟨error | files, middle⟩
  · exact id
  · exact fun written => removeStale_disturbs written fun tag stale => (mem_staleTags.mp stale).1

/-! The whole write. -/

theorem opened_disk (disk : store.IsDisk) (output : Path) : (opened output store).IsDisk := by
  have alters := opened_alters disk.toIsFileSystem output
  refine ⟨alters.system, fun location target link => ?_⟩
  by_cases made : Made store (opened output store) location
  · rw [made.2] at link
    cases link
  · rw [alters.entry?_eq made] at link
    exact disk.targets _ _ link

/-- Nothing is different but the places of the package and directories that are made on the way to
it, and every directory can still be reached. -/
structure Confined (output : Path) (store after : Store) : Prop where
  directories : ∀ path location, store.DirectoryAt path location → after.DirectoryAt path location
  elsewhere : ∀ location, after.entry? location = store.entry? location ∨
    (Made store after location ∧ OnWay (packageDirectory output) after location) ∨
    PackagePlace output store location

/-- The outcome of a confined change that succeeded: a disk on which the package has no places that
it did not have before. -/
structure Settled (output : Path) (store after : Store) : Prop
    extends Confined output store after where
  disk : after.IsDisk
  narrows : ∀ location, PackagePlace output after location → PackagePlace output store location

theorem Confined.refl (output : Path) (store : Store) : Confined output store store :=
  ⟨fun _ _ found => found, fun _ => .inl rfl⟩

theorem Settled.refl (disk : store.IsDisk) (output : Path) : Settled output store store :=
  ⟨Confined.refl output store, disk, fun _ place => place⟩

/-- Where no link stands for a file of the package, nothing is different but these files and
directories that are made on the way to them. -/
theorem Confined.unlinked (confined : Confined output store after) (system : store.IsFileSystem)
    (found : (opened output store).DirectoryAt (packageDirectory output) home)
    (unlinked : Unlinked store home) (foreign : ¬ Owned home location) :
    after.entry? location = store.entry? location ∨
      (Made store after location ∧ OnWay (packageDirectory output) after location) := by
  rcases confined.elsewhere location with same | made | place
  · exact .inl same
  · exact .inr made
  · exact absurd ((packagePlace_iff_owned system found unlinked).mp place) foreign

/-- What is confined after a change that settled is confined with it. -/
theorem Settled.confined (first : Settled output store reached)
    (second : Confined output reached after) : Confined output store after where
  directories path location found :=
    second.directories path location (first.directories path location found)
  elsewhere location := by
    rcases second.elsewhere location with same | ⟨made, onWay⟩ | place
    · rw [same]
      rcases first.elsewhere location with before | ⟨made, above, inPath, found⟩ | place
      · exact .inl before
      · exact .inr (.inl ⟨⟨made.1, same.trans made.2⟩, above, inPath,
          second.directories _ _ found⟩)
      · exact .inr (.inr place)
    · rcases first.elsewhere location with before | ⟨early, -⟩ | place
      · exact .inr (.inl ⟨⟨before ▸ made.1, made.2⟩, onWay⟩)
      · have free := made.1
        rw [early.2] at free
        cases free
      · exact .inr (.inr place)
    · exact .inr (.inr (first.narrows location place))

theorem Settled.trans (first : Settled output store reached)
    (second : Settled output reached after) : Settled output store after :=
  ⟨first.confined second.toConfined, second.disk,
    fun location place => first.narrows location (second.narrows location place)⟩

theorem confined_of_disturbs (disk : store.IsDisk)
    (disturbs : Disturbs (PlaceIn output (opened output store)) (opened output store) after) :
    Confined output store after := by
  have alters := opened_alters disk.toIsFileSystem output
  have way : Store.Way (packageDirectory output) store (opened output store) :=
    disk.makeDirectories_way (packageDirectory output)
  have kept (path : Path) (location : Location)
      (found : (opened output store).DirectoryAt path location) :
      after.DirectoryAt path location := (disturbs.directories path location).mpr found
  refine ⟨fun path location found => kept _ _ (alters.keeps.directoryAt found), fun location => ?_⟩
  by_cases place : PackagePlace output store location
  · exact .inr (.inr place)
  · rw [disturbs.elsewhere location place]
    by_cases made : Made store (opened output store) location
    · obtain ⟨above, inPath, found⟩ := way location made
      exact .inr (.inl ⟨⟨made.1, (kept _ _ found).2⟩, above, inPath, kept _ _ found⟩)
    · exact .inl (alters.entry?_eq made)

theorem settled_of_disturbs (disk : store.IsDisk)
    (there : (opened output store).isDirectory (packageDirectory output) = true)
    (disturbs : Disturbs (PlaceIn output (opened output store)) (opened output store) after) :
    Settled output store after := by
  refine ⟨confined_of_disturbs disk disturbs, disturbs.disk, ?_⟩
  obtain ⟨home, found⟩ := Store.isDirectory_iff.mp there
  have still := Store.isDirectory_iff.mpr ⟨home, (disturbs.directories _ _).mpr found⟩
  have stays : opened output after = after := by
    rw [opened, disturbs.disk.makeDirectories_there still]
  rintro location ⟨tag, known, standing | located⟩
  · rw [stays, locateEntry_unit known] at standing
    obtain ⟨directory, found, rfl⟩ := standing
    exact ⟨tag, known, .inl ((locateEntry_unit known).mpr
      ⟨directory, (disturbs.directories _ _).mp found, rfl⟩)⟩
  · rw [stays] at located
    rcases disturbs.ends _ _ located with before | place
    · exact ⟨tag, known, .inr before⟩
    · exact place

/-- A write of some units is confined, however it ends, and settles when it succeeds. -/
theorem writeUnits_confined (output : Path) (disk : store.IsDisk) (nonempty : units ≠ []) :
    Confined output store (writeUnits output units store).2 ∧
      ∀ result, (writeUnits output units store).1 = .ok result →
        Settled output store (writeUnits output units store).2 := by
  unfold writeUnits
  cases sorted : orderUnits units with
  | error error => exact ⟨Confined.refl output store, nofun⟩
  | ok ordered =>
    have nonempty : ordered ≠ [] := by
      obtain ⟨unit, member⟩ := List.exists_mem_of_ne_nil units nonempty
      exact List.ne_nil_of_mem ((mem_ordered_iff sorted).mpr member)
    have openDisk := opened_disk disk output
    rcases writeOrdered_starts output disk.toIsFileSystem nonempty with
      ⟨error, failed⟩ | ⟨there, same⟩
    · simp only [failed]
      exact ⟨confined_of_disturbs disk (openDisk.disturbs _), nofun⟩
    · obtain ⟨home, found⟩ := Store.isDirectory_iff.mp there
      have disturbs := writeOrdered_disturbs openDisk found
        fun unit member => (mem_orderUnits sorted member).2
      simp only [same]
      exact ⟨confined_of_disturbs disk disturbs,
        fun _ _ => settled_of_disturbs disk there disturbs⟩

end EnumLookup.Package
