import EnumLookup.Proofs.Declaration.Targets
import Mathlib.Data.List.Infix

/-!
Which assigned names are those of members. The enum machinery leaves alone names enclosed in two
underscores, names enclosed in one, and private names, and looks at the characters next to the
underscores as well. The rule here does not: a name is also refused when it starts with an
underscore and ends with two.
-/
namespace EnumLookup

open Declaration Source Text

namespace Source

/-- The statement assigns the value to the name: alone, in a chain, by unpacking or with an
annotation. What a star collects is not counted. -/
inductive Stmt.Assigns (name : String) (value : Expr) : Stmt → Prop
  | assign {targets} (target : ⟨name, false⟩ ∈ Expr.boundNamesOfTargets targets) :
      Assigns name value (.assign targets value)
  | annotated {type} : Assigns name value (.annotated (.name name) type (some value))

end Source

namespace Declaration

/-- Enclosed in two underscores, with other characters next to them. -/
structure IsDunder (name : List Char) : Prop where
  long : 4 < name.length
  starts : ['_', '_'] <+: name
  ends : ['_', '_'] <:+ name
  third : name[2]? ≠ some '_'
  thirdLast : name.reverse[2]? ≠ some '_'

/-- Enclosed in single underscores, with other characters next to them. -/
structure IsSunder (name : List Char) : Prop where
  long : 2 < name.length
  starts : ['_'] <+: name
  ends : ['_'] <:+ name
  second : name[1]? ≠ some '_'
  secondLast : name.reverse[1]? ≠ some '_'

/-- Two underscores in front, and not at the end. -/
structure IsPrivate (name : List Char) : Prop where
  starts : ['_', '_'] <+: name
  ends : ¬['_', '_'] <:+ name

/-- What the enum machinery makes a member of. -/
structure IsEligible (name : String) (ignored : List String) : Prop where
  kept : name ∉ ignored
  notDunder : ¬IsDunder name.toList
  notSunder : ¬IsSunder name.toList
  notPrivate : ¬IsPrivate name.toList

/-- At least one underscore in front and at least two at the end. -/
structure IsLopsided (name : List Char) : Prop where
  starts : ['_'] <+: name
  ends : ['_', '_'] <:+ name

instance (name : List Char) : Decidable (IsLopsided name) :=
  decidable_of_iff (['_'] <+: name ∧ ['_', '_'] <:+ name)
    ⟨fun ⟨starts, ends⟩ => ⟨starts, ends⟩, fun lopsided => ⟨lopsided.starts, lopsided.ends⟩⟩

variable {chars : List Char} {name : String} {ignored : List String} {body : List Stmt}

/-- Two underscores in front are one, and another behind it. -/
theorem twoInFront_iff : ['_', '_'] <+: chars ↔ ['_'] <+: chars ∧ chars[1]? = some '_' := by
  rcases chars with _ | ⟨first, _ | ⟨second, rest⟩⟩ <;>
    simp [List.cons_prefix_cons, @eq_comm Char '_']

theorem twoAtEnd_iff : ['_', '_'] <:+ chars ↔ ['_'] <:+ chars ∧ chars.reverse[1]? = some '_' := by
  rw [← List.reverse_prefix, ← List.reverse_prefix]
  exact twoInFront_iff

/-- What is no longer than the two underscores that it ends with starts with them. -/
theorem IsLopsided.starts_with_two (lopsided : IsLopsided chars) (short : chars.length ≤ 2) :
    ['_', '_'] <+: chars := by
  rw [← lopsided.ends.eq_of_length_le short]

theorem head_iff : chars.head? = some '_' ↔ ['_'] <+: chars := by
  cases chars <;> simp [List.cons_prefix_cons, @eq_comm Char '_']

theorem getLast_iff : chars.getLast? = some '_' ↔ ['_'] <:+ chars := by
  rw [← List.head?_reverse, ← List.reverse_prefix]
  exact head_iff

/-- What the rule looks at: two underscores in front, or one on either side. -/
theorem isMemberName_iff : isMemberName name ignored = true ↔
    name ∉ ignored ∧ ¬['_', '_'] <+: name.toList ∧
      ¬(2 < name.toList.length ∧ ['_'] <+: name.toList ∧ ['_'] <:+ name.toList) := by
  rw [← head_iff, ← getLast_iff, ← List.isPrefixOf_iff_prefix]
  simp only [isMemberName, startsWithTwo]
  by_cases kept : name ∈ ignored
  · simp [kept]
  · by_cases starts : ['_', '_'].isPrefixOf name.toList
    · simp [starts]
    · simp only [Bool.not_eq_true] at starts
      simp [kept, starts, imp_iff_not_or, or_assoc]

/-- The rule refuses what the enum machinery leaves alone, and also what starts with an underscore
and ends with two. -/
theorem isMemberName_iff_eligible : isMemberName name ignored = true ↔
    IsEligible name ignored ∧ ¬IsLopsided name.toList := by
  rw [isMemberName_iff]
  constructor
  · rintro ⟨kept, notTwo, notEnclosed⟩
    refine ⟨⟨kept, fun dunder => notTwo dunder.starts, fun sunder => ?_,
      fun isPrivate => notTwo isPrivate.starts⟩, fun lopsided => ?_⟩
    · exact notEnclosed ⟨sunder.long, sunder.starts, sunder.ends⟩
    · -- Of two characters there is only `__`, which the start alone refuses.
      by_cases long : 2 < name.toList.length
      · exact notEnclosed ⟨long, lopsided.starts, (twoAtEnd_iff.mp lopsided.ends).1⟩
      · exact notTwo (lopsided.starts_with_two (Nat.not_lt.mp long))
  · rintro ⟨eligible, notLopsided⟩
    have notTwo : ¬['_', '_'] <+: name.toList := fun starts =>
      eligible.notPrivate ⟨starts, fun ends => notLopsided ⟨(twoInFront_iff.mp starts).1, ends⟩⟩
    refine ⟨eligible.kept, notTwo, fun ⟨long, starts, ends⟩ => ?_⟩
    refine eligible.notSunder ⟨long, starts, ends, fun second => ?_, fun secondLast => ?_⟩
    · exact notTwo (twoInFront_iff.mpr ⟨starts, second⟩)
    · exact notLopsided ⟨starts, twoAtEnd_iff.mpr ⟨ends, secondLast⟩⟩

/-- A name with one underscore in front and two at the end is neither enclosed in single underscores
nor private. -/
theorem IsLopsided.eligible_iff (lopsided : IsLopsided name.toList) :
    IsEligible name ignored ↔ name ∉ ignored ∧ ¬IsDunder name.toList := by
  constructor
  · intro eligible
    exact ⟨eligible.kept, eligible.notDunder⟩
  · rintro ⟨kept, notDunder⟩
    refine ⟨kept, notDunder, fun sunder => ?_, fun isPrivate => isPrivate.ends lopsided.ends⟩
    exact sunder.secondLast (twoAtEnd_iff.mp lopsided.ends).2

/-- The constants of a body are the names that pass the rule where they are assigned a value that
can be that of a member. -/
theorem constant_mem_members : ⟨name, true⟩ ∈ members body ↔
    ∃ stmt ∈ body, ∃ value, stmt.Assigns name value ∧ isMemberValue value = true ∧
      isMemberName name (ignoredNames body) = true := by
  rw [members, List.mem_flatMap]
  generalize ignoredNames body = ignored
  refine exists_congr fun stmt => and_congr_right fun _ => ?_
  constructor
  · intro member
    cases stmt with
    | assign targets value =>
      obtain ⟨id, target, same⟩ := List.mem_map.mp member
      obtain ⟨rfl, isConstant⟩ := Member.mk.inj same
      exact ⟨value, .assign (Expr.mem_targetNames.mp target), Bool.and_eq_true_iff.mp isConstant⟩
    | annotated target type value =>
      cases target with
      | name id =>
        cases value with
        | none => simp [statementMembers] at member
        | some value =>
          obtain ⟨rfl, isConstant⟩ := Member.mk.inj (List.mem_singleton.mp member)
          exact ⟨value, .annotated, Bool.and_eq_true_iff.mp isConstant.symm⟩
      | _ => simp [statementMembers] at member
    | _ => simp [statementMembers] at member
  · rintro ⟨value, assigns, isValue, isName⟩
    cases assigns with
    | assign target =>
      exact List.mem_map.mpr ⟨name, Expr.mem_targetNames.mpr target, by rw [isValue, isName]; rfl⟩
    | annotated => simp [statementMembers, isValue, isName]

/-- A name passes the rule when the enum machinery would make a member of it, unless it starts with
an underscore and ends with two. What is missed for that are exactly the names of this shape that
are not ignored and not enclosed in two underscores. In every body the constants are the names that
pass where they are assigned. -/
theorem memberName_rule (name : String) (ignored : List String) (body : List Stmt) :
    (isMemberName name ignored = true ↔ IsEligible name ignored ∧ ¬IsLopsided name.toList) ∧
    (isMemberName name ignored = false ∧ IsEligible name ignored ↔
      name ∉ ignored ∧ IsLopsided name.toList ∧ ¬IsDunder name.toList) ∧
    (⟨name, true⟩ ∈ members body ↔
      ∃ stmt ∈ body, ∃ value, stmt.Assigns name value ∧ isMemberValue value = true ∧
        IsEligible name (ignoredNames body) ∧ ¬IsLopsided name.toList) := by
  refine ⟨isMemberName_iff_eligible, ?_, ?_⟩
  · rw [← Bool.not_eq_true, isMemberName_iff_eligible]
    constructor
    · rintro ⟨refused, eligible⟩
      have lopsided : IsLopsided name.toList :=
        not_not.mp fun straight => refused ⟨eligible, straight⟩
      exact ⟨eligible.kept, lopsided, eligible.notDunder⟩
    · rintro ⟨kept, lopsided, notDunder⟩
      exact ⟨fun accepted => accepted.2 lopsided, lopsided.eligible_iff.mpr ⟨kept, notDunder⟩⟩
  · simp only [constant_mem_members, isMemberName_iff_eligible]

/-- The enum machinery makes a member of `_a__`, and it is no constant of the body. -/
theorem lopsided_refused :
    IsEligible "_a__" [] ∧ isMemberName "_a__" [] = false ∧
    membersInText "class C(Enum):\n _a__ = 1\n" = some [[⟨"_a__", false⟩]] := by
  have lopsided : IsLopsided "_a__".toList := by decide
  refine ⟨lopsided.eligible_iff.mpr ⟨by decide, fun dunder => ?_⟩, by decide, by decide +kernel⟩
  exact absurd dunder.long (by decide)

end Declaration

end EnumLookup
