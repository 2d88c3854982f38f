import EnumLookup.Text.Dotted

/-!
Taking dotted names apart. Two names joined by a dot have the components of both, and a name
without a dot is its own only component. A name encloses those that are made of it, a dot and
anything else.
-/
namespace EnumLookup.Text.Dotted

/-- The name has one component, and that is not empty. -/
def IsWord (name : String) : Prop := name ≠ "" ∧ '.' ∉ name.toList

theorem splitDots_append (cs ds : List Char) :
    splitDots (cs ++ '.' :: ds) = splitDots cs ++ splitDots ds := by
  induction cs with
  | nil => rfl
  | cons c rest ih =>
    simp only [List.cons_append, splitDots, ih]
    split
    · rfl
    · cases parts : splitDots rest with
      | nil => exact absurd parts (splitDots_ne_nil rest)
      | cons part parts => rfl

theorem splitDots_undotted {cs : List Char} (undotted : '.' ∉ cs) : splitDots cs = [cs] := by
  induction cs with
  | nil => rfl
  | cons c rest ih =>
    have different : c ≠ '.' := fun same => undotted (same ▸ List.mem_cons_self ..)
    have others : '.' ∉ rest := fun inRest => undotted (List.mem_cons_of_mem _ inRest)
    simp only [splitDots, ih others, if_neg different]

variable {name outer inner : String}

/-- Two names joined by a dot have the components of both. -/
theorem components_append (outer inner : String) :
    components (outer ++ "." ++ inner) = components outer ++ components inner := by
  simp only [components, String.toList_append, List.append_assoc]
  rw [← List.map_append]
  exact congrArg _ (splitDots_append outer.toList inner.toList)

theorem components_undotted (undotted : '.' ∉ name.toList) : components name = [name] := by
  rw [components, splitDots_undotted undotted, List.map_singleton, String.ofList_toList]

theorem undotted_of_mem (undotted : '.' ∉ name.toList) :
    ∀ c ∈ name.toList, decide (c ≠ '.') = true := by
  intro c member
  exact decide_eq_true fun same => undotted (same ▸ member)

theorem cut_undotted (undotted : '.' ∉ name.toList) : cut name = (name, "") := by
  have whole := undotted_of_mem undotted
  have taken : name.toList.takeWhile (· ≠ '.') = name.toList := by
    simpa using @List.takeWhile_append_of_pos _ _ name.toList [] whole
  have dropped : name.toList.dropWhile (· ≠ '.') = [] := by
    simpa using @List.dropWhile_append_of_pos _ _ name.toList [] whole
  rw [cut, taken, dropped, String.ofList_toList]
  rfl

theorem enclosing_undotted (undotted : '.' ∉ name.toList) : enclosing name = "" := by
  rw [enclosing, components_undotted undotted]
  rfl

theorem join_singleton (name : String) : join [name] = name := String.ofList_toList

theorem join_cons {part : String} {parts : List String} (nonempty : parts ≠ []) :
    join (part :: parts) = part ++ "." ++ join parts := by
  apply String.toList_inj.mp
  simp only [join, List.map_cons, joinDots_cons (mt List.map_eq_nil_iff.mp nonempty)]
  simp

theorem join_append {parts others : List String} (someParts : parts ≠ [])
    (someOthers : others ≠ []) : join (parts ++ others) = join parts ++ "." ++ join others := by
  induction parts with
  | nil => exact absurd rfl someParts
  | cons part rest ih =>
    cases rest with
    | nil => rw [List.singleton_append, join_cons someOthers, join_singleton]
    | cons next rest =>
      have more : next :: rest ≠ [] := List.cons_ne_nil next rest
      rw [List.cons_append, join_cons (List.append_ne_nil_of_left_ne_nil more others), ih more,
        join_cons more]
      simp only [String.append_assoc]

theorem join_ne_empty {part : String} {rest : List String} (named : part ≠ "") :
    join (part :: rest) ≠ "" := by
  intro empty
  have none : joinDots ((part :: rest).map String.toList) = [] := by
    simpa [join] using congrArg String.toList empty
  have first : part.toList ≠ [] := fun nothing => named (String.toList_eq_nil_iff.mp nothing)
  cases rest with
  | nil => exact first (by simpa [joinDots] using none)
  | cons second rest =>
    rw [List.map_cons, joinDots_cons (by simp)] at none
    simp at none

theorem extend_joined {parts : List String} (words : ∀ part ∈ parts, IsWord part) :
    extend name (join parts) = join (name :: parts) := by
  cases parts with
  | nil => exact (join_singleton name).symm
  | cons part rest =>
    rw [join_cons (List.cons_ne_nil part rest)]
    exact if_neg (join_ne_empty (words part (List.mem_cons_self ..)).1)

theorem join_cons_joined (outer inner : String) (parts : List String) :
    join ((outer ++ "." ++ inner) :: parts) = join (outer :: inner :: parts) := by
  rw [join_cons (List.cons_ne_nil inner parts)]
  cases parts with
  | nil => rw [join_singleton, join_singleton]
  | cons part rest =>
    rw [join_cons (List.cons_ne_nil part rest), join_cons (List.cons_ne_nil part rest)]
    simp only [String.append_assoc]

/-- A word is cut off from what is joined to it. -/
theorem cut_join (undotted : '.' ∉ name.toList) (parts : List String) :
    cut (join (name :: parts)) = (name, join parts) := by
  cases parts with
  | nil => rw [join_singleton, cut_undotted undotted]; rfl
  | cons part rest =>
    rw [join_cons (List.cons_ne_nil part rest), cut, String.toList_append, String.toList_append,
      List.append_assoc, List.takeWhile_append_of_pos (undotted_of_mem undotted),
      List.dropWhile_append_of_pos (undotted_of_mem undotted)]
    simp

/-- Words joined by dots are taken apart again. -/
theorem components_join {parts : List String} (someParts : parts ≠ [])
    (words : ∀ part ∈ parts, IsWord part) : components (join parts) = parts := by
  induction parts with
  | nil => exact absurd rfl someParts
  | cons part rest ih =>
    have first := components_undotted (words part (List.mem_cons_self ..)).2
    cases rest with
    | nil => rw [join_singleton, first]
    | cons next rest =>
      have others := ih (List.cons_ne_nil next rest) fun part inRest =>
        words part (List.mem_cons_of_mem _ inRest)
      rw [join_cons (List.cons_ne_nil next rest), components_append, first, others]
      rfl

theorem eq_nil_of_join {parts : List String} (words : ∀ part ∈ parts, IsWord part)
    (empty : join parts = "") : parts = [] := by
  cases parts with
  | nil => rfl
  | cons part rest =>
    have whole := components_join (List.cons_ne_nil part rest) words
    rw [empty] at whole
    obtain ⟨rfl, -⟩ := List.cons.inj whole
    exact absurd rfl (words "" (List.mem_cons_self ..)).1

theorem join_injective {parts others : List String} (words : ∀ part ∈ parts, IsWord part)
    (otherWords : ∀ part ∈ others, IsWord part) (same : join parts = join others) :
    parts = others := by
  cases parts with
  | nil => exact (eq_nil_of_join otherWords same.symm).symm
  | cons part rest =>
    cases others with
    | nil => exact eq_nil_of_join words same
    | cons other more =>
      rw [← components_join (List.cons_ne_nil part rest) words, same,
        components_join (List.cons_ne_nil other more) otherWords]

theorem qualify_join {parts : List String} (named : ∀ part ∈ parts, part ≠ "") (name : String) :
    qualify (join parts) name = join (parts ++ [name]) := by
  unfold qualify
  split
  · next empty =>
    cases parts with
    | nil => exact (join_singleton name).symm
    | cons part rest =>
      exact absurd empty (join_ne_empty (named part (List.mem_cons_self ..)))
  · next inside =>
    have someParts : parts ≠ [] := by
      rintro rfl
      exact inside rfl
    rw [join_append someParts (List.cons_ne_nil name []), join_singleton]

/-! Names that enclose names. -/

section Enclosing

variable {tail : String} {i k : Nat}

/-- The components of the outer name are the first components of the name, but not all of them. -/
def Encloses (outer name : String) : Prop :=
  components outer <+: components name ∧ outer ≠ name

instance (outer name : String) : Decidable (Encloses outer name) :=
  inferInstanceAs (Decidable (_ ∧ _))

theorem components_ne_nil (name : String) : components name ≠ [] := by
  simp [components, splitDots_ne_nil]

/-- A name encloses exactly what is joined to it by a dot. -/
theorem encloses_iff : Encloses outer name ↔ ∃ inner, name = outer ++ "." ++ inner := by
  constructor
  · rintro ⟨⟨more, whole⟩, different⟩
    have left : more ≠ [] := by
      rintro rfl
      rw [List.append_nil] at whole
      exact different (by rw [← join_components outer, whole, join_components])
    refine ⟨join more, ?_⟩
    rw [← join_components name, ← whole, join_append (components_ne_nil outer) left,
      join_components]
  · rintro ⟨inner, rfl⟩
    refine ⟨⟨components inner, (components_append outer inner).symm⟩, fun same => ?_⟩
    have lengths := congrArg String.length same
    have dot : ".".length = 1 := rfl
    simp only [String.length_append] at lengths
    omega

/-- What begins with a name is enclosed by it if a dot comes next. The name itself is not, and
neither is a name whose component goes on. -/
theorem encloses_append : Encloses outer (outer ++ tail) ↔ tail.toList.head? = some '.' := by
  simp only [encloses_iff, ← String.toList_inj, String.toList_append, List.append_assoc,
    List.append_cancel_left_eq]
  constructor
  · rintro ⟨inner, dotted⟩
    rw [dotted]
    rfl
  · intro dotted
    obtain ⟨rest, dotted⟩ := List.head?_eq_some_iff.mp dotted
    exact ⟨String.ofList rest, by simp [dotted]⟩

def front (name : String) (k : Nat) : String := join ((components name).take k)

def back (name : String) (k : Nat) : String := join ((components name).drop k)

theorem front_append_back (someFront : 0 < k) (someBack : k < (components name).length) :
    name = front name k ++ "." ++ back name k := by
  have taken : (components name).take k ≠ [] := by
    rw [← List.length_pos_iff, List.length_take]
    omega
  have left : (components name).drop k ≠ [] := by
    rw [← List.length_pos_iff, List.length_drop]
    omega
  rw [front, back, ← join_append taken left, List.take_append_drop, join_components]

theorem exists_front (whole : name = outer ++ "." ++ inner) :
    ∃ k, 0 < k ∧ k < (components name).length ∧ outer = front name k ∧ inner = back name k := by
  have parts : components name = components outer ++ components inner := by
    rw [whole, components_append]
  have someOuter := List.length_pos_iff.mpr (components_ne_nil outer)
  have someInner := List.length_pos_iff.mpr (components_ne_nil inner)
  refine ⟨(components outer).length, someOuter, ?_, ?_, ?_⟩
  · rw [parts, List.length_append]
    omega
  · rw [front, parts, List.take_left, join_components]
  · rw [back, parts, List.drop_left, join_components]

/-- More components make a longer name. -/
theorem length_front_lt (some : 0 < i) (fewer : i < k) (within : k ≤ (components name).length) :
    (front name i).length < (front name k).length := by
  have taken : (components name).take i ≠ [] := by
    rw [← List.length_pos_iff, List.length_take]
    omega
  have added : ((components name).drop i).take (k - i) ≠ [] := by
    rw [← List.length_pos_iff, List.length_take, List.length_drop]
    omega
  have longer : front name k =
      front name i ++ "." ++ join (((components name).drop i).take (k - i)) := by
    have more : k = i + (k - i) := by omega
    rw [front, front, ← join_append taken added, ← List.take_add, ← more]
  simp only [longer, String.length_append]
  have dot : ".".length = 1 := rfl
  omega

end Enclosing

end EnumLookup.Text.Dotted
