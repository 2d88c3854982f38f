import EnumLookup.Declaration.Class
import EnumLookup.Proofs.Declaration.Branches
import EnumLookup.Source.Module

/-!
What assignments bind, and what is reported of it. An assignment stores values under the names in
its targets, from left to right, and what a starred element collects is stored as well. The names
that are reported of a target are the same in the same order, without those below a star.
-/
namespace EnumLookup

open Declaration Source Text

namespace Source

/-- A value as far as unpacking it is concerned: the items of a sequence. -/
inductive Value where
  | single
  | sequence (items : List Value)

namespace Expr

mutual
/-- Assigning a value to a target stores these values under these names, in this order. -/
inductive Stores : Expr → Value → List (String × Value) → Prop
  | name {id value} : Stores (.name id) value [(id, value)]
  | attribute {object attr value} : Stores (.attribute object attr) value []
  | subscript {object index value} : Stores (.subscript object index) value []
  | tuple {elements items stores} (all : StoresAll elements items stores) :
      Stores (.tuple elements) (.sequence items) stores
  | list {elements items stores} (all : StoresAll elements items stores) :
      Stores (.list elements) (.sequence items) stores

/-- Each element takes one item, and a starred one the sequence of any number of items. -/
inductive StoresAll : List Expr → List Value → List (String × Value) → Prop
  | nil : StoresAll [] [] []
  | cons {element item stores rest items more} (first : Stores element item stores)
      (others : StoresAll rest items more) :
      StoresAll (element :: rest) (item :: items) (stores ++ more)
  | starred {element collected stores rest items more}
      (first : Stores element (.sequence collected) stores) (others : StoresAll rest items more) :
      StoresAll (.starred element :: rest) (collected ++ items) (stores ++ more)
end

structure BoundName where
  name : String
  isStarred : Bool
  deriving DecidableEq, Repr

mutual
/-- The names in a target with those below stars, from left to right. -/
def boundNames (isStarred : Bool) : Expr → List BoundName
  | .name id => [⟨id, isStarred⟩]
  | .starred element => element.boundNames true
  | .tuple elements => boundNamesOfAll isStarred elements
  | .list elements => boundNamesOfAll isStarred elements
  | _ => []

def boundNamesOfAll (isStarred : Bool) : List Expr → List BoundName
  | [] => []
  | element :: rest => element.boundNames isStarred ++ boundNamesOfAll isStarred rest
end

def unstarred (names : List BoundName) : List String :=
  (names.filter fun bound => !bound.isStarred).map (·.name)

mutual
theorem Stores.names (isStarred : Bool) : ∀ {target : Expr} {value : Value} {stores},
    target.Stores value stores →
      stores.map (·.1) = (target.boundNames isStarred).map (·.name)
  | _, _, _, .name => rfl
  | _, _, _, .attribute => rfl
  | _, _, _, .subscript => rfl
  | _, _, _, .tuple all => all.names isStarred
  | _, _, _, .list all => all.names isStarred

theorem StoresAll.names (isStarred : Bool) : ∀ {elements : List Expr} {items : List Value} {stores},
    StoresAll elements items stores →
      stores.map (·.1) = (boundNamesOfAll isStarred elements).map (·.name)
  | _, _, _, .nil => rfl
  | _, _, _, .cons first others => by
    rw [boundNamesOfAll, List.map_append, List.map_append, first.names isStarred,
      others.names isStarred]
  | _, _, _, .starred first others => by
    rw [boundNamesOfAll, boundNames, List.map_append, List.map_append, first.names true,
      others.names isStarred]
end

/-- Every target can be assigned to, a starred one too: some sequence fits it. -/
theorem exists_stores {target : Expr} (assignable : target.isTarget = true) :
    ∃ items stores, target.Stores (.sequence items) stores := by
  refine isTarget.induct
    (fun target => target.isTarget = true → ∃ items stores, target.Stores (.sequence items) stores)
    (fun elements => areTargets elements = true → ∃ items stores, StoresAll elements items stores)
    ?_ ?_ ?_ ?_ ?_ ?_ ?_ ?_ ?_ target assignable
  · intro id _
    exact ⟨[], _, .name⟩
  · intro object attr _
    exact ⟨[], _, .attribute⟩
  · intro object index _
    exact ⟨[], _, .subscript⟩
  · intro elements inElements assignable
    obtain ⟨items, stores, all⟩ := inElements assignable
    exact ⟨items, stores, .tuple all⟩
  · intro elements inElements assignable
    obtain ⟨items, stores, all⟩ := inElements assignable
    exact ⟨items, stores, .list all⟩
  · intro target noName noAttribute noSubscript noTuple noList assignable
    rw [isTarget] at assignable
    · cases assignable
    all_goals assumption
  · intro _
    exact ⟨[], [], .nil⟩
  · intro element rest inElement inRest assignable
    obtain ⟨first, others⟩ := Bool.and_eq_true_iff.mp assignable
    obtain ⟨collected, stores, inFirst⟩ := inElement first
    obtain ⟨items, more, all⟩ := inRest others
    exact ⟨collected ++ items, stores ++ more, .starred inFirst all⟩
  · intro element rest notStarred inElement inRest assignable
    rw [areTargets.eq_3 element rest notStarred] at assignable
    obtain ⟨first, others⟩ := Bool.and_eq_true_iff.mp assignable
    obtain ⟨item, stores, inFirst⟩ := inElement first
    obtain ⟨items, more, all⟩ := inRest others
    exact ⟨.sequence item :: items, stores ++ more, .cons inFirst all⟩

theorem unstarred_append (names others : List BoundName) :
    unstarred (names ++ others) = unstarred names ++ unstarred others := by
  simp [unstarred]

/-- Nothing is left out exactly when no name stands below a star. -/
theorem unstarred_eq_names_iff {names : List BoundName} :
    unstarred names = names.map (·.name) ↔ ∀ bound ∈ names, bound.isStarred = false := by
  constructor
  · intro same
    have all : (names.filter fun bound => !bound.isStarred).length = names.length := by
      simpa [unstarred] using congrArg List.length same
    simpa using List.length_filter_eq_length_iff.mp all
  · intro none
    rw [unstarred, List.filter_eq_self.mpr fun bound member => by simp [none bound member]]

/-- What is not starred of the names of a target are those that are reported of it, and below a star
nothing. -/
theorem unstarred_boundNames (isStarred : Bool) (target : Expr) :
    unstarred (target.boundNames isStarred) = if isStarred then [] else target.targetNames := by
  refine boundNames.induct
    (fun isStarred target => unstarred (target.boundNames isStarred) =
      if isStarred then [] else target.targetNames)
    (fun isStarred elements => unstarred (boundNamesOfAll isStarred elements) =
      if isStarred then [] else targetsNames elements) ?_ ?_ ?_ ?_ ?_ ?_ ?_ isStarred target
  · intro isStarred id
    cases isStarred <;> rfl
  · intro isStarred element below
    rw [boundNames, below]
    cases isStarred <;> rfl
  · intro isStarred elements inElements
    exact inElements
  · intro isStarred elements inElements
    exact inElements
  · intro target isStarred noName noStarred noTuple noList
    rw [boundNames, targetNames, ite_self]
    · rfl
    all_goals assumption
  · intro isStarred
    cases isStarred <;> rfl
  · intro isStarred element rest inElement inRest
    rw [boundNamesOfAll, unstarred_append, inElement, inRest]
    cases isStarred <;> rfl

def boundNamesOfTargets (targets : List Expr) : List BoundName :=
  targets.flatMap fun target => target.boundNames false

theorem targetNames_eq (targets : List Expr) :
    targets.flatMap targetNames = unstarred (boundNamesOfTargets targets) := by
  induction targets with
  | nil => rfl
  | cons target rest ih =>
    have first : unstarred (target.boundNames false) = target.targetNames :=
      unstarred_boundNames false target
    rw [boundNamesOfTargets, List.flatMap_cons, List.flatMap_cons, unstarred_append, first, ih]
    rfl

theorem mem_targetNames {name : String} {targets : List Expr} :
    name ∈ targets.flatMap targetNames ↔ ⟨name, false⟩ ∈ boundNamesOfTargets targets := by
  rw [targetNames_eq, unstarred, List.mem_map]
  constructor
  · rintro ⟨⟨id, isStarred⟩, kept, rfl⟩
    obtain ⟨member, unstarred⟩ := List.mem_filter.mp kept
    obtain rfl : isStarred = false := by simpa using unstarred
    exact member
  · intro member
    exact ⟨_, List.mem_filter.mpr ⟨member, rfl⟩, rfl⟩

end Expr

end Source

namespace Declaration

open Expr

variable {targets : List Expr} {value : Expr} {body : List Stmt}

/-- An assignment makes the bindings of its reported names, in one piece and in their order. -/
theorem moduleBindings_assign (context : ModuleContext) {later : List (List Stmt)}
    (occurs : Occurs (.assign targets value) body later) :
    ∃ front back, (moduleBindings context body).reverse =
      front ++ (unstarred (boundNamesOfTargets targets)).map (ownBinding context) ++ back := by
  obtain ⟨before, around⟩ := occurs.flatten_eq
  refine ⟨before.flatMap (statementBindings context),
    (later.flatMap flatten).flatMap (statementBindings context), ?_⟩
  rw [moduleBindings, List.reverse_reverse, around, List.flatMap_append, List.flatMap_cons,
    statementBindings, targetNames_eq]
  simp [branches]

/-- The members of a body have the reported names of an assignment in it, in one piece and in their
order. -/
theorem members_assign (inBody : .assign targets value ∈ body) :
    ∃ front back, (members body).map (·.name) =
      front ++ unstarred (boundNamesOfTargets targets) ++ back := by
  rw [members]
  generalize ignoredNames body = ignored
  obtain ⟨before, after, rfl⟩ := List.append_of_mem inBody
  refine ⟨(before.flatMap (statementMembers ignored)).map (·.name),
    (after.flatMap (statementMembers ignored)).map (·.name), ?_⟩
  rw [List.flatMap_append, List.flatMap_cons, statementMembers, targetNames_eq]
  simp [Function.comp_def]

/-- What an assignment stores is reported, in the order in which it is stored, but for what is
stored below a star. So everything is reported exactly when no name stands below a star. -/
theorem assignment_reported (targets : List Expr) (assigned : Expr) :
    (∀ target ∈ targets, target.isTarget = true → ∃ value stores, target.Stores value stores) ∧
    (∀ target ∈ targets, ∀ value stores, target.Stores value stores →
      stores.map (·.1) = (target.boundNames false).map (·.name) ∧
      target.targetNames = unstarred (target.boundNames false) ∧
      (target.targetNames = stores.map (·.1) ↔
        ∀ bound ∈ target.boundNames false, bound.isStarred = false)) ∧
    (∀ context body later, Occurs (.assign targets assigned) body later →
      ∃ front back, (moduleBindings context body).reverse =
        front ++ (unstarred (boundNamesOfTargets targets)).map (ownBinding context) ++ back) ∧
    ∀ body, .assign targets assigned ∈ body →
      ∃ front back, (members body).map (·.name) =
        front ++ unstarred (boundNamesOfTargets targets) ++ back := by
  refine ⟨fun target _ assignable => ?_, fun target _ value stores fits => ?_,
    fun context body later occurs => moduleBindings_assign context occurs,
    fun body inBody => members_assign inBody⟩
  · obtain ⟨items, stores, fits⟩ := exists_stores assignable
    exact ⟨.sequence items, stores, fits⟩
  · have names := fits.names false
    have reported : target.targetNames = unstarred (target.boundNames false) :=
      (unstarred_boundNames false target).symm
    refine ⟨names, reported, ?_⟩
    rw [reported, names]
    exact unstarred_eq_names_iff

/-- The targets of `(A, [B, o.x]), D = E = …`. -/
def nestedTargets : List Expr :=
  [.tuple [.tuple [.name "A", .list [.name "B", .attribute (.name "o") "x"]], .name "D"], .name "E"]

theorem assignment_reported_nested : ∃ front back,
    (members [.simple [], .assign nestedTargets .constant]).map (·.name) =
      front ++ ["A", "B", "D", "E"] ++ back :=
  (assignment_reported nestedTargets .constant).2.2.2 _ (by simp)

def membersInText [Characters] (text : String) : Option (List (List Member)) :=
  (parseModule text.toList).toOption.map fun body =>
    (declarations "m.py" "m" body).map fun declaration => members declaration.body

/-- The target of `A, *B = …`. -/
def starredTarget : Expr := .tuple [.name "A", .starred (.name "B")]

/-- Three items are stored under two names, and only the first is reported. -/
theorem starred_not_reported :
    starredTarget.Stores (.sequence [.single, .single, .single])
      [("A", .single), ("B", .sequence [.single, .single])] ∧
    starredTarget.targetNames = ["A"] ∧
    (members [.assign [starredTarget] .constant]).map (·.name) = ["A"] ∧
    (moduleBindings ⟨"m", false⟩ [.assign [starredTarget] .constant]).lookup "B" = none ∧
    membersInText "class C(Enum):\n A, *B = 1, 2, 3\n" = some [[⟨"A", true⟩]] := by
  refine ⟨.tuple (.cons .name (@StoresAll.starred _ [.single, .single] _ _ _ _ .name .nil)), ?_⟩
  decide +kernel

end Declaration

end EnumLookup
