import EnumLookup.Store.Operations
import Mathlib.Data.List.Infix

/-!
What is found in a store after a change, and stores that are trees of files and directories. In a
tree every entry stands in a directory, so all of its ancestors are directories.
-/
namespace EnumLookup.Store

variable {store : Store} {location other : Location} {entry : Entry}

theorem lookup_filter_key {α β : Type} [BEq α] [LawfulBEq α] (keep : α → Bool)
    (entries : List (α × β)) (key : α) :
    (entries.filter fun entry => keep entry.1).lookup key =
      if keep key then entries.lookup key else none := by
  induction entries with
  | nil => simp
  | cons first rest ih =>
    obtain ⟨k, value⟩ := first
    by_cases same : key = k
    · subst same
      by_cases kept : keep key = true
      · simp [kept]
      · simp [kept, ih]
    · have differs : (key == k) = false := by simpa using same
      by_cases kept : keep k = true
      · simp [kept, List.lookup_cons, differs, ih]
      · simp [kept, List.lookup_cons, differs, ih]

@[simp] theorem entry?_nil (store : Store) : store.entry? [] = some .directory :=
  if_pos rfl

theorem entry?_below (store : Store) (below : location ≠ []) :
    store.entry? location = store.entries.lookup location :=
  if_neg below

theorem entry?_put_same (store : Store) (below : location ≠ []) (entry : Entry) :
    Store.entry? (store.put location entry) location = some entry := by
  simp [entry?_below, put, below]

theorem entry?_put_other (store : Store) (apart : other ≠ location) (entry : Entry) :
    Store.entry? (store.put location entry) other = store.entry? other := by
  by_cases top : other = []
  · simp [top]
  · have differs : (other == location) = false := by simpa using apart
    have kept := lookup_filter_key (fun key => decide (key ≠ location)) store.entries other
    simp only [decide_eq_true_eq, apart, ne_eq, not_false_eq_true, if_true] at kept
    simp only [entry?_below _ top, put, List.lookup_cons, differs]
    exact kept

theorem entry?_erase (store : Store) (below : location ≠ []) (other : Location) :
    Store.entry? (store.erase location) other =
      if location <+: other then none else store.entry? other := by
  have kept := lookup_filter_key (fun key => !location.isPrefixOf key) store.entries other
  by_cases top : other = []
  · subst top
    simp [below]
  · simp only [entry?_below _ top, erase, ← List.isPrefixOf_iff_prefix]
    rw [kept]
    by_cases inside : location.isPrefixOf other = true
    · simp [inside]
    · simp [inside]

structure IsTree (store : Store) : Prop where
  unlinked : ∀ location target, store.entry? location ≠ some (.link target)
  rooted : ∀ location name entry, store.entry? (location ++ [name]) = some entry →
    store.entry? location = some .directory

theorem entry?_eq_none_iff (below : location ≠ []) :
    store.entry? location = none ↔ location ∉ store.entries.map (·.1) := by
  rw [entry?_below store below, List.lookup_eq_none_iff, List.mem_map]
  constructor
  · rintro absent ⟨listed, member, rfl⟩
    simpa using absent listed member
  · intro absent listed member
    by_contra same
    rw [bne_iff_ne, not_not] at same
    exact absent ⟨listed, member, same.symm⟩

theorem isTree_iff : store.IsTree ↔ ∀ location ∈ store.entries.map (·.1),
    (match store.entry? location with
      | some (.link _) => false
      | _ => true) = true ∧ store.entry? location.dropLast = some .directory := by
  constructor
  · intro tree location member
    constructor
    · split
      · next target found => exact absurd found (tree.unlinked location target)
      · rfl
    · rcases List.eq_nil_or_concat' location with rfl | ⟨above, name, rfl⟩
      · simp
      · obtain ⟨entry, found⟩ := Option.ne_none_iff_exists'.mp
          (mt (entry?_eq_none_iff (by simp)).mp (not_not.mpr member))
        rw [List.dropLast_concat]
        exact tree.rooted above name entry found
  · intro sound
    have listed (location : Location) (below : location ≠ []) (entry : Entry)
        (found : store.entry? location = some entry) : location ∈ store.entries.map (·.1) := by
      by_contra absent
      rw [(entry?_eq_none_iff below).mpr absent] at found
      cases found
    refine ⟨fun location target found => ?_, fun location name entry found => ?_⟩
    · have below : location ≠ [] := by
        rintro rfl
        simp at found
      have unlinked := (sound location (listed location below _ found)).1
      simp [found] at unlinked
    · have above := (sound _ (listed _ (by simp) entry found)).2
      rwa [List.dropLast_concat] at above

instance (store : Store) : Decidable store.IsTree := decidable_of_iff _ isTree_iff.symm

namespace IsTree

theorem ancestor (tree : store.IsTree) {below : Location} (inside : below ≠ [])
    (found : store.entry? (location ++ below) = some entry) :
    store.entry? location = some .directory := by
  induction below using List.reverseRecOn generalizing entry with
  | nil => exact absurd rfl inside
  | append_singleton above name ih =>
    rw [← List.append_assoc] at found
    have parent := tree.rooted _ _ _ found
    by_cases top : above = []
    · simpa [top] using parent
    · exact ih top parent

theorem parent (tree : store.IsTree) (found : store.entry? location = some .directory) :
    store.entry? location.dropLast = some .directory := by
  rcases List.eq_nil_or_concat' location with rfl | ⟨above, name, rfl⟩
  · exact found
  · rw [List.dropLast_concat]
    exact tree.rooted _ _ _ found

theorem directory_above (tree : store.IsTree) (above : location <+: other)
    (found : store.entry? other = some .directory) : store.entry? location = some .directory := by
  obtain ⟨below, rfl⟩ := above
  by_cases last : below = []
  · rwa [last, List.append_nil] at found
  · exact tree.ancestor last found

theorem put (tree : store.IsTree) {directory : Location} {name : String}
    (home : store.entry? directory = some .directory)
    (nothingBelow : store.entry? (directory ++ [name]) ≠ some .directory)
    (notLink : ∀ target, entry ≠ .link target) :
    (store.put (directory ++ [name]) entry).IsTree where
  unlinked location target := by
    by_cases same : location = directory ++ [name]
    · subst same
      rw [entry?_put_same store (by simp)]
      intro link
      exact notLink target (Option.some.inj link)
    · rw [entry?_put_other store same]
      exact tree.unlinked location target
  rooted location last found present := by
    by_cases same : location ++ [last] = directory ++ [name]
    · obtain ⟨rfl, -⟩ := List.append_inj' same rfl
      rwa [entry?_put_other store (by simp)]
    · rw [entry?_put_other store same] at present
      have above := tree.rooted _ _ _ present
      have apart : location ≠ directory ++ [name] := by
        rintro rfl
        exact nothingBelow above
      rwa [entry?_put_other store apart]

theorem erase (tree : store.IsTree) (below : location ≠ []) : (store.erase location).IsTree where
  unlinked other target := by
    rw [entry?_erase store below]
    split
    · simp
    · exact tree.unlinked other target
  rooted other name found present := by
    rw [entry?_erase store below] at present ⊢
    split at present
    · cases present
    · next outside =>
      have above : ¬ location <+: other := by
        intro inside
        exact outside (inside.trans (List.prefix_append ..))
      rw [if_neg above]
      exact tree.rooted _ _ _ present

end IsTree

end EnumLookup.Store
