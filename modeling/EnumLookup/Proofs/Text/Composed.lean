import EnumLookup.Text.Composed
import EnumLookup.Text.Identifier

/-!
Composed forms hold no dot. Neither does anything that the tables of decompositions and composites
list, which are read here by the codes of their characters.
-/
namespace EnumLookup.Text

def digitOf (code : Nat) : Option Nat :=
  bif Nat.ble 48 code && Nat.ble code 57 then some (code - 48)
  else bif Nat.ble 97 code && Nat.ble code 102 then some (code - 97 + 10)
  else bif Nat.ble 65 code && Nat.ble code 70 then some (code - 65 + 10)
  else none

/-- The hexadecimal numbers of a text, given by the codes of its characters. -/
def numbersOf : List Nat → Option Nat → List Nat
  | [], pending => pending.toList
  | code :: rest, pending =>
    match digitOf code with
    | some digit => numbersOf rest (some (16 * pending.getD 0 + digit))
    | none => pending.toList ++ numbersOf rest none

theorem hexDigit?_eq (c : Char) : hexDigit? c = digitOf c.toNat := by
  simp only [hexDigit?, digitOf, Char.le_def, UInt32.le_iff_toNat_le, Bool.cond_eq_ite,
    Bool.and_eq_true, Nat.ble_eq]
  rfl

theorem scan_eq (chars : List Char) (pending : Option Nat) :
    hexNumbers.scan chars pending = numbersOf (chars.map Char.toNat) pending := by
  induction chars generalizing pending with
  | nil => rfl
  | cons c rest ih =>
    rw [hexNumbers.scan, List.map_cons, numbersOf, hexDigit?_eq]
    cases digitOf c.toNat with
    | none => rw [ih]
    | some digit => exact ih _

inductive MadeOf : List String → List (List Char) → Prop where
  | nil : MadeOf [] []
  | cons {line : String} {chars : List Char} {lines : List String} {rest : List (List Char)} :
    line = String.ofList chars → MadeOf lines rest → MadeOf (line :: lines) (chars :: rest)

def allNumbers (chars : List (List Char)) : List Nat :=
  chars.flatMap fun line => numbersOf (line.map Char.toNat) none

theorem MadeOf.numbers {lines : List String} {chars : List (List Char)} (made : MadeOf lines chars) :
    lines.flatMap hexNumbers = allNumbers chars := by
  induction made with
  | nil => rfl
  | cons same _ ih =>
    rw [List.flatMap_cons, ih, same, hexNumbers, String.toList_ofList, scan_eq]
    rfl

namespace Composed

variable {code : Nat} {codes : List Nat}

/-- What is checked of the numbers in a table, by the codes of its characters. -/
theorem of_numbers {lines : List String} (check : List Nat → Bool)
    (checked : ∃ chars, MadeOf lines chars ∧ check (allNumbers chars) = true) :
    check (lines.flatMap hexNumbers) = true := by
  obtain ⟨chars, made, holds⟩ := checked
  rw [made.numbers]
  exact holds

def dot : Nat := 46

theorem singles_above : (singles.all fun run => Nat.blt dot run.value) = true := by
  apply of_numbers fun numbers => (runsFrom 0 numbers).all fun run => Nat.blt dot run.value
  apply Exists.intro
  apply And.intro
  · dsimp only [singleLines]
    repeat' (first | exact .nil | apply MadeOf.cons rfl)
  · decide +kernel

theorem severals_undotted :
    (severals.all fun entry => !entry.2.isEmpty && !entry.2.contains dot) = true := by
  apply of_numbers fun numbers => (groupsFrom numbers.length 0 numbers).all fun entry =>
    !entry.2.isEmpty && !entry.2.contains dot
  apply Exists.intro
  apply And.intro
  · dsimp only [severalLines]
    repeat' (first | exact .nil | apply MadeOf.cons rfl)
  · decide +kernel

theorem composites_undotted : (composites.all fun entry => entry.2.2 != dot) = true := by
  apply of_numbers fun numbers => (triplesFrom numbers).all fun entry => entry.2.2 != dot
  apply Exists.intro
  apply And.intro
  · dsimp only [compositeLines]
    repeat' (first | exact .nil | apply MadeOf.cons rfl)
  · decide +kernel

theorem decompose_undotted (other : code ≠ dot) : decompose code ≠ [] ∧ dot ∉ decompose code := by
  unfold decompose
  split
  · simp [other.symm]
  · split
    · have other {base : Nat} (above : dot < base) (index : Nat) : dot ≠ base + index :=
        Nat.ne_of_lt (Nat.lt_add_right _ above)
      have lead := other (by decide : dot < leadBase)
      have vowel := other (by decide : dot < vowelBase)
      have tail := other (by decide : dot < tailBase)
      simp only [decomposeSyllable]
      split <;> simp [lead, vowel, tail]
    · cases single : singles.find? (·.covers code) with
      | some run =>
        have above := List.all_eq_true.mp singles_above run (List.mem_of_find?_eq_some single)
        have value : dot ≠ run.value + (code - run.first) :=
          Nat.ne_of_lt (Nat.lt_add_right _ (Nat.blt_eq.mp above))
        simp [value]
      | none =>
        cases several : severals.lookup code with
        | some parts =>
          obtain ⟨before, after, split, -⟩ := List.lookup_eq_some_iff.mp several
          have undotted := List.all_eq_true.mp severals_undotted (code, parts) (by simp [split])
          simpa using undotted
        | none => simp [other.symm]

theorem mem_place {other : Nat} : other ∈ place code codes ↔ other = code ∨ other ∈ codes := by
  induction codes with
  | nil => simp [place]
  | cons before rest ih =>
    unfold place
    split
    · simp [ih, or_left_comm]
    · simp

theorem mem_canonicalOrder : code ∈ canonicalOrder codes ↔ code ∈ codes := by
  have placed (codes ordered : List Nat) :
      code ∈ codes.foldl (fun ordered code => place code ordered) ordered ↔
        code ∈ ordered ∨ code ∈ codes := by
    induction codes generalizing ordered with
    | nil => simp
    | cons first rest ih => simp [ih, mem_place, or_assoc, or_left_comm]
  simp [canonicalOrder, placed]

theorem composePair?_ne_dot {first second composed : Nat}
    (made : composePair? first second = some composed) : composed ≠ dot := by
  have above {code : Nat} (syllable : syllableBase ≤ code) : code ≠ dot :=
    Nat.ne_of_gt (Nat.lt_of_lt_of_le (by decide) syllable)
  unfold composePair? at made
  split at made
  · next syllable found =>
    obtain rfl := Option.some.inj made
    unfold composeSyllable? at found
    split at found
    · obtain rfl := Option.some.inj found
      exact above (Nat.le_add_right ..)
    · split at found
      · next isPair =>
        obtain rfl := Option.some.inj found
        have start : syllableBase ≤ first := by
          have syllable := isPair.1
          rw [isSyllable, Bool.and_eq_true] at syllable
          exact of_decide_eq_true syllable.1
        exact above (Nat.le_add_right_of_le start)
      · cases found
  · obtain ⟨entry, found, rfl⟩ := Option.map_eq_some_iff.mp made
    have other := List.all_eq_true.mp composites_undotted entry (List.mem_of_find?_eq_some found)
    simpa using other

theorem Cluster.mem_codes {cluster : Cluster} :
    code ∈ cluster.codes ↔ code = cluster.starter ∨ code ∈ cluster.marks := by
  simp [codes]

theorem Cluster.absorb?_undotted {cluster grown : Cluster} (undotted : dot ∉ cluster.codes)
    (absorbs : cluster.absorb? code = some grown) : dot ∉ grown.codes := by
  rw [Cluster.mem_codes, not_or] at undotted
  simp only [absorb?, Option.ite_none_right_eq_some] at absorbs
  obtain ⟨-, absorbs⟩ := absorbs
  obtain ⟨composed, made, rfl⟩ := Option.map_eq_some_iff.mp absorbs
  rw [Cluster.mem_codes, not_or]
  exact ⟨(composePair?_ne_dot made).symm, undotted.2⟩

theorem composeFrom_undotted {cluster : Cluster} (undotted : dot ∉ cluster.codes)
    (others : dot ∉ codes) : composeFrom cluster codes ≠ [] ∧ dot ∉ composeFrom cluster codes := by
  induction codes generalizing cluster with
  | nil => exact ⟨List.cons_ne_nil _ _, undotted⟩
  | cons code rest ih =>
    rw [List.mem_cons, not_or] at others
    obtain ⟨other, others⟩ := others
    unfold composeFrom
    split
    · next grown absorbs => exact ih (Cluster.absorb?_undotted undotted absorbs) others
    · split
      · have alone : dot ∉ (Cluster.mk code []).codes := by simpa [Cluster.codes] using other
        have behind := ih alone others
        simp [undotted, behind.1, behind.2]
      · apply ih _ others
        rw [Cluster.mem_codes, not_or] at undotted ⊢
        simp [undotted, other]

theorem compose_undotted (some : codes ≠ []) (undotted : dot ∉ codes) :
    compose codes ≠ [] ∧ dot ∉ compose codes := by
  induction codes with
  | nil => exact absurd rfl some
  | cons code rest ih =>
    rw [List.mem_cons, not_or] at undotted
    unfold compose
    split
    · exact composeFrom_undotted (by simpa [Cluster.codes] using undotted.1) undotted.2
    · refine ⟨List.cons_ne_nil _ _, ?_⟩
      cases rest with
      | nil => simpa [compose] using undotted.1
      | cons next rest => simpa [undotted.1] using (ih (List.cons_ne_nil _ _) undotted.2).2

theorem ofNat_ne_dot (other : code ≠ dot) : Char.ofNat code ≠ '.' := by
  by_cases valid : code.isValidChar
  · rw [Char.ofNat, dif_pos valid]
    exact fun same => other (congrArg Char.toNat same)
  · rw [Char.ofNat, dif_neg valid]
    decide

/-- The composed form of characters without a dot is no empty one, and has no dot. -/
theorem normalize_undotted {name : List Char} (some : name ≠ []) (undotted : '.' ∉ name) :
    normalize name ≠ [] ∧ '.' ∉ normalize name := by
  unfold normalize
  split
  · exact ⟨some, undotted⟩
  · have decomposed : (name.flatMap fun c => decompose c.toNat) ≠ [] ∧
        dot ∉ name.flatMap fun c => decompose c.toNat := by
      have undots : ∀ c ∈ name, decompose c.toNat ≠ [] ∧ dot ∉ decompose c.toNat := by
        intro c member
        apply decompose_undotted
        intro same
        obtain rfl : c = '.' := Char.toNat_inj.mp same
        exact undotted member
      constructor
      · obtain ⟨c, member⟩ := List.exists_mem_of_ne_nil name some
        exact fun empty => (undots c member).1 (List.flatMap_eq_nil_iff.mp empty c member)
      · rw [List.mem_flatMap]
        rintro ⟨c, member, dotted⟩
        exact (undots c member).2 dotted
    obtain ⟨code, first⟩ := List.exists_mem_of_ne_nil _ decomposed.1
    obtain ⟨composed, free⟩ := compose_undotted
      (List.ne_nil_of_mem (mem_canonicalOrder.mpr first))
      (mt mem_canonicalOrder.mp decomposed.2)
    refine ⟨mt List.map_eq_nil_iff.mp composed, fun member => ?_⟩
    obtain ⟨code, inside, same⟩ := List.mem_map.mp member
    exact ofNat_ne_dot (fun isDot => free (isDot ▸ inside)) same

end Composed

end EnumLookup.Text
