import EnumLookup.Proofs.Discovery
import EnumLookup.Proofs.Text.Dotted
import EnumLookup.Proofs.Text.Lines
import EnumLookup.Proofs.Text.Paths

/-!
What is found. Every source file stands below one of the roots, at a path that imports can name, and
holds what is read there. Its path gives it away: two files of one path hold the same text, and they
are different modules only when one of their roots lies within the other.
-/
namespace EnumLookup

open Text

variable {parts : List String} {part module : String} {relative : Path}

/-! The components of paths that imports can name. -/

theorem ne_empty_of_importable (importable : Identifier.isImportable part = true) : part ≠ "" := by
  rintro rfl
  simp [Identifier.isImportable, Identifier.isIdentifier, Identifier.isIdentifierChars] at importable

theorem isPart_of_importable (importable : Identifier.isImportable part = true) :
    Path.IsPart part := by
  have continues (c : Char) (member : c ∈ part.toList) : Identifier.isContinue c = true :=
    isContinue_of_mem (Bool.and_eq_true_iff.mp importable).1 member
  refine ⟨ne_empty_of_importable importable, ?_, fun slash => ?_⟩
  · rintro rfl
    have dot := continues '.' (by simp)
    revert dot
    decide
  · have slash := continues '/' slash
    revert slash
    decide

/-- A file defines a module by components that imports can name, and perhaps that of a package. -/
theorem moduleOfParts?_eq_some (named : moduleOfParts? parts = some module) :
    ∃ kept, kept ≠ [] ∧ module = Dotted.join kept ∧
      (∀ part ∈ kept, Identifier.isImportable part = true) ∧
      (parts = kept ∨ parts = kept ++ [packageStem]) := by
  unfold moduleOfParts? at named
  generalize keeps : (if parts.getLast? = some packageStem then parts.dropLast else parts) = kept
    at named
  dsimp only at named
  split at named
  · cases named
  · next sound =>
    cases named
    simp only [Bool.or_eq_true, Bool.not_eq_true', not_or, Bool.not_eq_false, List.all_eq_true]
      at sound
    refine ⟨kept, ?_, rfl, sound.2, ?_⟩
    · rintro rfl
      exact sound.1 rfl
    · split at keeps
      · next last =>
        subst keeps
        exact .inr (List.dropLast_append_getLast? _ last).symm
      · exact .inl keeps

theorem moduleOfParts?_importable (named : moduleOfParts? parts = some module) :
    ∀ part ∈ parts, Identifier.isImportable part = true := by
  obtain ⟨kept, -, -, importable, rfl | rfl⟩ := moduleOfParts?_eq_some named
  · exact importable
  · refine List.forall_mem_append.mpr ⟨importable, ?_⟩
    rw [List.forall_mem_singleton]
    decide

theorem moduleOfParts?_named (named : moduleOfParts? parts = some module) : module ≠ "" := by
  obtain ⟨kept, some, rfl, importable, -⟩ := moduleOfParts?_eq_some named
  cases kept with
  | nil => exact absurd rfl some
  | cons part rest =>
    exact Dotted.join_ne_empty (ne_empty_of_importable (importable part (List.mem_cons_self ..)))

theorem moduleName?_named (named : moduleName? relative = .ok (some module)) : module ≠ "" := by
  unfold moduleName? at named
  split at named
  · cases named
  · exact moduleOfParts?_named (Except.ok.inj named)

namespace Discovery

/-- A source file whose stem can be imported has nothing behind the stem but its extension. -/
theorem eq_stem_of_source {name : String} (source : isSourceName name = true)
    (importable : Identifier.isImportable (Path.stem name) = true) :
    name = Path.stem name ++ sourceExtension := by
  obtain ⟨cs, chars⟩ := List.isSuffixOf_iff_suffix.mp source
  have reversed : name.toList.reverse = 'y' :: 'p' :: '.' :: cs.reverse := by
    rw [← chars, List.reverse_append]
    rfl
  have stem : Path.stem name = if cs = [] then name else String.ofList cs := by
    simp [Path.stem, reversed]
  split at stem
  · next nothing =>
    subst nothing
    have bare : name = ".py" := String.toList_inj.mp chars.symm
    have reserved : Identifier.isImportable ".py" = false := by decide
    rw [stem, bare, reserved] at importable
    cases importable
  · rw [stem, ← String.toList_inj, String.toList_append, String.toList_ofList, chars]

theorem isPart_source (isPart : Path.IsPart part) : Path.IsPart (part ++ sourceExtension) := by
  have long : (part ++ sourceExtension).length = part.length + 3 := String.length_append ..
  refine ⟨fun empty => ?_, fun dot => ?_, ?_⟩
  · rw [empty, String.length_empty] at long
    omega
  · rw [dot, show ".".length = 1 from rfl] at long
    omega
  · rw [String.toList_append, List.mem_append, not_or]
    exact ⟨isPart.2.2, by decide⟩

/-- The paths of source files are in normal form. -/
theorem importable_normal (rootless : relative.root = 0) (source : isSourceName relative.name = true)
    (named : moduleName? relative = .ok (some module)) : relative.IsNormal := by
  refine ⟨by omega, ?_⟩
  unfold moduleName? Path.withoutExtension? at named
  cases last : relative.parts.getLast? with
  | none =>
    rw [last] at named
    cases named
  | some name =>
    rw [last] at named
    have whole := List.dropLast_append_getLast? name last
    rw [Path.name, last, Option.getD_some] at source
    have parts := moduleOfParts?_importable (Except.ok.inj named)
    rw [Path.components, if_pos rootless, List.forall_mem_append, List.forall_mem_singleton] at parts
    rw [← whole, List.forall_mem_append, List.forall_mem_singleton]
    refine ⟨fun part member => isPart_of_importable (parts.1 part member), ?_⟩
    rw [eq_stem_of_source source parts.2]
    exact isPart_source (isPart_of_importable parts.2)

variable {store : Store} {exclude : List String} {roots : List Path} {root : Path}
  {files : List SourceFile} {file : SourceFile}

theorem standing_eq_importable : standing exclude relative = .importable module ↔
    (∀ pattern ∈ exclude, Glob.accepts pattern relative.text = false) ∧
      moduleName? relative = .ok (some module) ∧ isGenerated module = false := by
  unfold standing
  by_cases excluded : (exclude.any fun pattern => Glob.accepts pattern relative.text) = true
  · have some : ¬ ∀ pattern ∈ exclude, Glob.accepts pattern relative.text = false := by
      simpa using excluded
    simp only [excluded, if_true, reduceCtorEq, some, false_and]
  · have all : ∀ pattern ∈ exclude, Glob.accepts pattern relative.text = false := by
      simpa using excluded
    simp only [excluded, Bool.false_eq_true, if_false, eq_true all, true_and]
    cases moduleName? relative with
    | error nameless => simp
    | ok found =>
      cases found with
      | none => simp
      | some found =>
        cases generated : isGenerated found with
        | true =>
          simp only [generated, if_true, reduceCtorEq, Except.ok.injEq, Option.some.injEq,
            false_iff, not_and]
          rintro rfl
          simp [generated]
        | false =>
          simp only [generated, Bool.false_eq_true, if_false, Standing.importable.injEq,
            Except.ok.injEq, Option.some.injEq, iff_self_and]
          rintro rfl
          exact generated

theorem standing_importable (importable : standing exclude relative = .importable module) :
    moduleName? relative = .ok (some module) := (standing_eq_importable.mp importable).2.1

/-- A file that was found at a path below a root, and what was read there. -/
structure FoundAt (store : Store) (root relative : Path) (file : SourceFile) : Prop where
  rootless : relative.root = 0
  normal : relative.IsNormal
  module : moduleName? relative = .ok (some file.module)
  path : file.path = (root.append relative).text
  text : ∃ bytes, store.read (root.append relative) = .ok bytes ∧
    Encoding.readText? store.setting.codecs bytes = some file.text

theorem mem_readModule {events : List Event}
    (read : readModule store root relative module = .ok (files, events)) (member : file ∈ files) :
    file.module = module ∧ file.path = (root.append relative).text ∧
      ∃ bytes, store.read (root.append relative) = .ok bytes ∧
        Encoding.readText? store.setting.codecs bytes = some file.text := by
  unfold readModule at read
  dsimp only at read
  cases held : store.read (root.append relative) with
  | error error =>
    rw [held] at read
    cases read
  | ok bytes =>
    rw [held, Except.map] at read
    split at read
    · next text decoded =>
      cases read
      obtain rfl := List.mem_singleton.mp member
      exact ⟨rfl, rfl, bytes, rfl, decoded⟩
    · cases read
      cases member

theorem mem_visit {events : List Event} (rootless : relative.root = 0)
    (source : isSourceName relative.name = true)
    (visited : visit store exclude root relative = .ok (files, events)) (member : file ∈ files) :
    FoundAt store root relative file := by
  unfold visit at visited
  split at visited
  · cases visited
    cases member
  · cases visited
    cases member
  · cases visited
    cases member
  · next module importable =>
    obtain ⟨rfl, path, text⟩ := mem_readModule visited member
    have named := standing_importable importable
    exact ⟨rootless, importable_normal rootless source named, named, path, text⟩

theorem mem_sourcePaths (member : relative ∈ sourcePaths store root) :
    relative.root = 0 ∧ isSourceName relative.name = true := by
  unfold sourcePaths at member
  split at member
  · cases member
  · split at member
    · obtain ⟨listed, source⟩ := List.mem_filter.mp (List.mem_mergeSort.mp member)
      obtain ⟨below, -, rfl⟩ := List.mem_map.mp listed
      exact ⟨rfl, source⟩
    · cases member

theorem discover_found (found : (discover store roots exclude).1 = .ok files)
    (member : file ∈ files) : ∃ root ∈ roots, ∃ relative, FoundAt store root relative file := by
  obtain ⟨⟨root, relative⟩, candidate, own, events, visited, inOwn⟩ := mem_visitAll found member
  obtain ⟨listed, isRoot, inside⟩ := List.mem_flatMap.mp candidate
  obtain ⟨path, isSource, same⟩ := List.mem_map.mp inside
  cases same
  obtain ⟨rootless, source⟩ := mem_sourcePaths isSource
  exact ⟨root, isRoot, relative, mem_visit rootless source visited inOwn⟩

/-- Every file that is found has a module name. -/
theorem discover_named (found : (discover store roots exclude).1 = .ok files) :
    ∀ file ∈ files, file.module ≠ "" := by
  intro file member
  obtain ⟨root, -, relative, foundAt⟩ := discover_found found member
  exact moduleName?_named foundAt.module

namespace FoundAt

variable {otherRoot inner : Path} {other : SourceFile}

theorem same_place (foundAt : FoundAt store root relative file)
    (otherAt : FoundAt store otherRoot inner other) (normal : root.IsNormal)
    (otherNormal : otherRoot.IsNormal) (same : file.path = other.path) :
    root.append relative = otherRoot.append inner := by
  rw [foundAt.path, otherAt.path] at same
  exact (normal.append foundAt.normal).text_injective (otherNormal.append otherAt.normal) same

/-- Files of one path hold one text. -/
theorem same_text (foundAt : FoundAt store root relative file)
    (otherAt : FoundAt store otherRoot inner other) (normal : root.IsNormal)
    (otherNormal : otherRoot.IsNormal) (same : file.path = other.path) :
    file.text = other.text := by
  obtain ⟨bytes, held, read⟩ := foundAt.text
  obtain ⟨otherBytes, otherHeld, otherRead⟩ := otherAt.text
  rw [foundAt.same_place otherAt normal otherNormal same, otherHeld] at held
  cases held
  exact Option.some.inj (read.symm.trans otherRead)

/-- Files of one path are one module, or one of their roots lies within the other. -/
theorem same_module (foundAt : FoundAt store root relative file)
    (otherAt : FoundAt store otherRoot inner other) (normal : root.IsNormal)
    (otherNormal : otherRoot.IsNormal) (same : file.path = other.path) :
    file.module = other.module ∨ root.IsWithin otherRoot ∨ otherRoot.IsWithin root := by
  have place := foundAt.same_place otherAt normal otherNormal same
  rcases Path.within_of_append_eq foundAt.rootless otherAt.rootless place with rfl | within
  · rw [Path.append, Path.append, if_pos foundAt.rootless, if_pos otherAt.rootless,
      Path.mk.injEq] at place
    have relatives : relative = inner :=
      congrArg₂ Path.mk (foundAt.rootless.trans otherAt.rootless.symm)
        (List.append_cancel_left place.2)
    have named := foundAt.module
    rw [relatives, otherAt.module] at named
    exact .inl (Option.some.inj (Except.ok.inj named)).symm
  · exact .inr within

end FoundAt

/-- Files of one path that were found hold one text, and they are one module as long as no root lies
within another one. -/
theorem discover_same_path {other : SourceFile} (normal : ∀ root ∈ roots, root.IsNormal)
    (found : (discover store roots exclude).1 = .ok files) (member : file ∈ files)
    (alsoMember : other ∈ files) (same : file.path = other.path) :
    file.text = other.text ∧
      (file.module = other.module ∨ ∃ root ∈ roots, ∃ base ∈ roots, root.IsWithin base) := by
  obtain ⟨root, isRoot, relative, foundAt⟩ := discover_found found member
  obtain ⟨otherRoot, alsoRoot, inner, otherAt⟩ := discover_found found alsoMember
  have rootNormal := normal root isRoot
  have otherNormal := normal otherRoot alsoRoot
  refine ⟨foundAt.same_text otherAt rootNormal otherNormal same, ?_⟩
  rcases foundAt.same_module otherAt rootNormal otherNormal same with one | within | within
  · exact .inl one
  · exact .inr ⟨root, isRoot, otherRoot, alsoRoot, within⟩
  · exact .inr ⟨otherRoot, alsoRoot, root, isRoot, within⟩

end Discovery

end EnumLookup
