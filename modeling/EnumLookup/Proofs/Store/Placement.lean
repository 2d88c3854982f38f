import EnumLookup.Proofs.Store.Alterations

/-!
Where paths end. A path ends in a directory or at a name in one, and never at a link. When files
come and go and links are removed, a path ends where it ended before, or in the place of such a
link.
-/
namespace EnumLookup.Store

variable {store after : Store} {path : Path} {start directory location : Location}
  {name target : String} {parts rest : List String}
  {behind behind' : Location → List String → Except Fault Location}

/-- A file system whose links hold texts that paths can have. -/
structure IsDisk (store : Store) : Prop extends IsFileSystem store where
  targets : ∀ location target, store.entry? location = some (.link target) →
    hasZero target = false

theorem isDisk_iff : store.IsDisk ↔ store.IsFileSystem ∧ ∀ location ∈ store.entries.map (·.1),
    (match store.entry? location with
      | some (.link target) => !hasZero target
      | _ => true) = true := by
  constructor
  · rintro ⟨system, targets⟩
    refine ⟨system, fun location _ => ?_⟩
    split
    · next target found => rw [targets location target found, Bool.not_false]
    · rfl
  · rintro ⟨system, sound⟩
    refine ⟨system, fun location target found => ?_⟩
    have listed : location ∈ store.entries.map (·.1) := by
      by_contra absent
      have below : location ≠ [] := by
        rintro rfl
        simp at found
      rw [(entry?_eq_none_iff below).mpr absent] at found
      cases found
    have zeroFree := sound location listed
    simpa [found] using zeroFree

instance (store : Store) : Decidable store.IsDisk := decidable_of_iff _ isDisk_iff.symm

/-! The places of paths. -/

theorem mem_splitSlashes {c : Char} {cs part : List Char} (inPart : c ∈ part)
    (member : part ∈ Path.splitSlashes cs) : c ∈ cs := by
  induction cs generalizing part with
  | nil =>
    obtain rfl := List.mem_singleton.mp member
    exact inPart
  | cons d ds ih =>
    rw [Path.splitSlashes] at member
    split at member
    · rcases List.mem_cons.mp member with rfl | inRest
      · cases inPart
      · exact List.mem_cons_of_mem _ (ih inPart inRest)
    · split at member
      · obtain rfl := List.mem_singleton.mp member
        rw [List.mem_singleton.mp inPart]
        exact List.mem_cons_self ..
      · next first others split =>
        rcases List.mem_cons.mp member with rfl | inRest
        · rcases List.mem_cons.mp inPart with rfl | inFirst
          · exact List.mem_cons_self ..
          · exact List.mem_cons_of_mem _ (ih inFirst (split ▸ List.mem_cons_self ..))
        · exact List.mem_cons_of_mem _ (ih inPart (split ▸ List.mem_cons_of_mem _ inRest))

theorem linkParts_zeroFree (zeroFree : hasZero target = false) :
    (linkParts target).any hasZero = false := by
  rw [linkParts, List.any_append, Bool.or_eq_false_iff]
  constructor
  · rw [List.any_eq_false]
    intro part member zero
    have inParts := (List.mem_filter.mp member).1
    obtain ⟨cs, split, rfl⟩ := List.mem_map.mp inParts
    have inPart : '\x00' ∈ cs := by simpa [hasZero] using zero
    have inTarget := mem_splitSlashes inPart split
    simp [hasZero, inTarget] at zeroFree
  · split
    · decide
    · rfl

def IsPlace (store : Store) (location : Location) : Prop :=
  store.entry? location = some .directory ∨
    ∃ directory name, location = directory ++ [name] ∧ Proper name ∧
      store.entry? directory = some .directory ∧
      ∀ target, store.entry? location ≠ some (.link target)

namespace IsDisk

theorem followFrom_place (disk : store.IsDisk)
    (placed : ∀ start parts, store.entry? start = some .directory → parts.any hasZero = false →
      behind start parts = .ok location → store.IsPlace location)
    (home : store.entry? start = some .directory) (zeroFree : parts.any hasZero = false)
    (ends : store.followFrom behind start parts = .ok location) : store.IsPlace location := by
  induction parts generalizing start with
  | nil =>
    cases ends
    exact .inl home
  | cons name rest ih =>
    obtain ⟨nameFree, restFree⟩ : hasZero name = false ∧ rest.any hasZero = false := by
      simpa only [List.any_cons, Bool.or_eq_false_iff] using zeroFree
    rw [followFrom] at ends
    by_cases turns : IsTurn name
    · simp only [turns, if_true] at ends
      exact ih (disk.turn home) restFree ends
    · simp only [turns, if_false] at ends
      have here (notLink : ∀ target, store.entry? (start ++ [name]) ≠ some (.link target))
          (last : Except.ok (start ++ [name]) = (.ok location : Except Fault Location)) :
          store.IsPlace location := by
        cases last
        exact .inr ⟨start, name, rfl, ⟨turns, nameFree⟩, home, notLink⟩
      cases next : store.entry? (start ++ [name]) with
      | none =>
        simp only [next] at ends
        split at ends
        · exact here (by simp [next]) ends
        · cases ends
      | some entry =>
        cases entry with
        | directory =>
          simp only [next] at ends
          exact ih next restFree ends
        | file bytes =>
          simp only [next] at ends
          split at ends
          · exact here (by simp [next]) ends
          · cases ends
        | link target =>
          simp only [next] at ends
          have free := linkParts_zeroFree (disk.targets _ _ next)
          exact placed _ _ (entry?_startOf home) (by rw [List.any_append, free, restFree]; rfl) ends

/-- A path ends in a directory or at a name in one, and not at a link. -/
theorem locate_place (disk : store.IsDisk) (located : store.locate path = .ok location) :
    store.IsPlace location := by
  have follows (links : Nat) (start : Location) (parts : List String)
      (home : store.entry? start = some .directory) (zeroFree : parts.any hasZero = false)
      (ends : store.follow links start parts = .ok location) : store.IsPlace location := by
    induction links generalizing start parts with
    | zero => exact disk.followFrom_place (fun _ _ _ _ never => by cases never) home zeroFree ends
    | succ links ih => exact disk.followFrom_place ih home zeroFree ends
  obtain ⟨zeroFree, home, ends⟩ := locate_eq_ok.mp located
  exact follows _ _ _ home zeroFree ends

end IsDisk

/-- A name stands in the directory that the path before it leads to. -/
theorem locateEntry_child_iff (proper : Proper name) :
    store.locateEntry (path.child name) = .ok location ↔
      ∃ directory, store.DirectoryAt path directory ∧ location = directory ++ [name] := by
  constructor
  · intro located
    simp only [locateEntry, Path.child, List.getLast?_concat, proper.named, if_false,
      List.dropLast_concat] at located
    split at located
    · cases located
    · next directory home =>
      split at located
      · next found =>
        split at located
        · cases located
        · cases located
          exact ⟨directory, ⟨home, found⟩, rfl⟩
      · cases located
      · cases located
  · rintro ⟨directory, found, rfl⟩
    exact locateEntry_child proper found

/-! Changes of what is no directory. -/

def IsLeaf (entry : Option Entry) : Prop := entry = none ∨ ∃ bytes, entry = some (.file bytes)

/-- A later store that differs in files, which may come and go, and in links that are gone. -/
structure Trims (gone : Location → Prop) (store after : Store) : Prop where
  setting : after.setting = store.setting
  entries : ∀ location, after.entry? location = store.entry? location ∨
    (IsLeaf (store.entry? location) ∧ IsLeaf (after.entry? location)) ∨
    (gone location ∧ after.entry? location = none)

theorem followFrom_leaf (named : ¬ IsTurn name) (leaf : IsLeaf (store.entry? (start ++ [name]))) :
    store.followFrom behind start (name :: rest) = .ok location ↔
      rest = [] ∧ location = start ++ [name] := by
  rw [followFrom, if_neg named]
  rcases leaf with none | ⟨bytes, file⟩
  · cases rest <;> simp [none, eq_comm]
  · cases rest <;> simp [file, eq_comm]

namespace Trims

variable {gone : Location → Prop}

theorem followFrom (trims : Trims gone store after)
    (same : ∀ start parts, behind' start parts = .ok location →
      behind start parts = .ok location ∨ gone location)
    (ends : after.followFrom behind' start parts = .ok location) :
    store.followFrom behind start parts = .ok location ∨ gone location := by
  induction parts generalizing start with
  | nil => exact .inl ends
  | cons name rest ih =>
    by_cases turns : IsTurn name
    · rw [Store.followFrom, if_pos turns] at ends ⊢
      exact ih ends
    · rcases trims.entries (start ++ [name]) with kept | ⟨before, leaf⟩ | ⟨isGone, none⟩
      · simp only [Store.followFrom, turns, if_false, kept] at ends ⊢
        cases next : store.entry? (start ++ [name]) with
        | none => exact .inl (by simpa only [next] using ends)
        | some entry =>
          simp only [next] at ends ⊢
          cases entry with
          | directory => exact ih ends
          | file bytes => exact .inl ends
          | link target => exact same _ _ ends
      · rw [followFrom_leaf turns leaf] at ends
        exact .inl ((followFrom_leaf turns before).mpr ends)
      · obtain ⟨-, rfl⟩ := (followFrom_leaf turns (.inl none)).mp ends
        exact .inr isGone

theorem entry?_directory (trims : Trims gone store after)
    (found : after.entry? location = some .directory) :
    store.entry? location = some .directory := by
  rcases trims.entries location with kept | ⟨-, none | ⟨bytes, file⟩⟩ | ⟨-, none⟩
  · rw [← kept, found]
  · rw [none] at found
    cases found
  · rw [file] at found
    cases found
  · rw [none] at found
    cases found

/-- Where a path ends after the change it ended before, unless it ends where a link is gone. -/
theorem locate (trims : Trims gone store after) (located : after.locate path = .ok location) :
    store.locate path = .ok location ∨ gone location := by
  have follows (links : Nat) (start : Location) (parts : List String)
      (ends : after.follow links start parts = .ok location) :
      store.follow links start parts = .ok location ∨ gone location := by
    induction links generalizing start parts with
    | zero => exact trims.followFrom (fun _ _ never => by cases never) ends
    | succ links ih => exact trims.followFrom ih ends
  obtain ⟨zeroFree, home, ends⟩ := locate_eq_ok.mp located
  rw [origin_eq trims.setting] at home ends
  exact (follows _ _ _ ends).imp_left fun before =>
    locate_eq_ok.mpr ⟨zeroFree, trims.entry?_directory home, before⟩

theorem directoryAt (trims : Trims gone store after)
    (disappears : ∀ location, gone location → after.entry? location = none)
    (found : after.DirectoryAt path directory) : store.DirectoryAt path directory := by
  refine ⟨(trims.locate found.1).resolve_right fun isGone => ?_, trims.entry?_directory found.2⟩
  have nothing := disappears directory isGone
  rw [found.2] at nothing
  cases nothing

end Trims

end EnumLookup.Store
