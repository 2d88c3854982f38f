import EnumLookup.Proofs.Declaration.MemberNames
import EnumLookup.Proofs.Declaration.Rebinding
import EnumLookup.Proofs.ParseTrees
import Mathlib.Data.List.TakeWhile

/-!
Names that an enum body lists to be ignored. A listed name is no constant wherever the body assigns
it, when the list is assigned alone or in a chain. An annotated assignment of the list is not read,
so the names in it are treated like any others.
-/
namespace EnumLookup

open Declaration Source Text

namespace Declaration

/-- The piece stands among the points between separators or the ends, and holds no separator. -/
structure IsPiece (piece points : List CodePoint) : Prop where
  nonempty : piece ≠ []
  whole : ∀ point ∈ piece, isSeparator point = false
  place : ∃ before after, points = before ++ piece ++ after ∧
    (∀ point ∈ before.getLast?, isSeparator point = true) ∧
    (∀ point ∈ after.head?, isSeparator point = true)

end Declaration

namespace Source

/-- The value lists the name: a text has it as a piece, and a list or a tuple as a string. -/
inductive Expr.Lists (name : String) : Expr → Prop
  | text {value} (piece : IsPiece (SourceText.ofString name).points value.points) :
      Lists name (.text value)
  | list {elements} (element : .text (.ofString name) ∈ elements) : Lists name (.list elements)
  | tuple {elements} (element : .text (.ofString name) ∈ elements) : Lists name (.tuple elements)

end Source

namespace Declaration

variable {point : CodePoint} {points piece run rest : List CodePoint}

theorem pieces_separator (separates : isSeparator point = true) (rest : List CodePoint) :
    pieces (point :: rest) = pieces rest := by
  conv_lhs => unfold pieces
  exact if_pos separates

theorem pieces_last (isPoint : isSeparator point = false)
    (ends : ∀ next ∈ rest.head?, isSeparator next = true) :
    pieces (point :: rest) = [point] :: pieces rest := by
  conv_lhs => unfold pieces
  rw [if_neg (Bool.not_eq_true _ ▸ isPoint)]
  cases rest with
  | nil => rfl
  | cons next others =>
    cases pieces (next :: others) with
    | nil => rfl
    | cons first more => exact if_pos (ends next rfl)

theorem pieces_longer {next : CodePoint} {more : List (List CodePoint)}
    (isPoint : isSeparator point = false) (isNext : isSeparator next = false)
    (behind : pieces (next :: rest) = piece :: more) :
    pieces (point :: next :: rest) = (point :: piece) :: more := by
  conv_lhs => unfold pieces
  rw [if_neg (Bool.not_eq_true _ ▸ isPoint), behind]
  exact if_neg (Bool.not_eq_true _ ▸ isNext)

/-- A run of points up to a separator or the end is a piece. -/
theorem pieces_run (someRun : run ≠ []) (whole : ∀ point ∈ run, isSeparator point = false)
    (ends : ∀ point ∈ rest.head?, isSeparator point = true) :
    pieces (run ++ rest) = run :: pieces rest := by
  induction run with
  | nil => exact absurd rfl someRun
  | cons first others ih =>
    obtain ⟨isPoint, inOthers⟩ := List.forall_mem_cons.mp whole
    cases others with
    | nil => exact pieces_last isPoint ends
    | cons second others =>
      exact pieces_longer isPoint (inOthers second (List.mem_cons_self ..))
        (ih (List.cons_ne_nil second others) inOthers)

/-- Points are taken apart at separators and into the runs between them. -/
theorem pieces_induction {motive : List CodePoint → Prop} (nil : motive [])
    (separator : ∀ point rest, isSeparator point = true → motive rest → motive (point :: rest))
    (run : ∀ run rest, run ≠ [] → (∀ point ∈ run, isSeparator point = false) →
      (∀ point ∈ rest.head?, isSeparator point = true) → motive rest → motive (run ++ rest))
    (points : List CodePoint) : motive points := by
  induction length : points.length using Nat.strongRecOn generalizing points with
  | ind count ih =>
    subst length
    cases points with
    | nil => exact nil
    | cons first rest =>
      by_cases separates : isSeparator first = true
      · exact separator first rest separates (ih _ (Nat.lt_succ_self _) rest rfl)
      · have parts := @List.takeWhile_append_dropWhile _ (fun point => !isSeparator point) rest
        have shorter := List.length_dropWhile_le (fun point => !isSeparator point) rest
        have ends := List.head?_dropWhile_not (fun point => !isSeparator point) rest
        rw [← parts, ← List.cons_append]
        refine run _ _ (List.cons_ne_nil _ _) ?_ ?_ (ih _ (Nat.lt_succ_of_le shorter) _ rfl)
        · refine List.forall_mem_cons.mpr ⟨Bool.not_eq_true _ ▸ separates, fun point member => ?_⟩
          simpa using List.mem_takeWhile_imp member
        · intro point found
          rw [Option.mem_def.mp found] at ends
          simpa using ends

theorem pieces_append_separator (separates : isSeparator point = true) (before rest) :
    pieces (before ++ point :: rest) = pieces before ++ pieces rest := by
  induction before using pieces_induction with
  | nil => exact pieces_separator separates rest
  | separator first others isSeparator ih =>
    rw [List.cons_append, pieces_separator isSeparator, pieces_separator isSeparator, ih]
  | run run others someRun whole ends ih =>
    rw [pieces_run someRun whole ends, List.append_assoc, pieces_run someRun whole, ih]
    · rfl
    · cases others with
      | nil => simpa using separates
      | cons next more => exact ends

theorem mem_pieces : piece ∈ pieces points ↔ IsPiece piece points := by
  constructor
  · intro member
    induction points using pieces_induction with
    | nil => cases member
    | separator first rest separates ih =>
      rw [pieces_separator separates] at member
      obtain ⟨nonempty, whole, before, after, rfl, starts, ends⟩ := ih member
      refine ⟨nonempty, whole, first :: before, after, rfl, ?_, ends⟩
      cases last : before.getLast? with
      | none => simpa [List.getLast?_cons, last] using separates
      | some point => simpa [List.getLast?_cons, last] using starts point last
    | run run rest someRun whole ends ih =>
      rw [pieces_run someRun whole ends] at member
      rcases List.mem_cons.mp member with rfl | behind
      · exact ⟨someRun, whole, [], rest, rfl, by simp, ends⟩
      · obtain ⟨nonempty, unseparated, before, after, rfl, starts, stops⟩ := ih behind
        -- Behind a run comes a separator, so the next piece does not start there.
        have someBefore : before ≠ [] := by
          rintro rfl
          obtain ⟨first, others, rfl⟩ := List.exists_cons_of_ne_nil nonempty
          have isPoint := unseparated first (List.mem_cons_self ..)
          rw [ends first rfl] at isPoint
          cases isPoint
        refine ⟨nonempty, unseparated, run ++ before, after, by simp, ?_, stops⟩
        rwa [List.getLast?_append_of_ne_nil _ someBefore]
  · rintro ⟨nonempty, whole, before, after, rfl, starts, ends⟩
    have here : piece ∈ pieces (piece ++ after) := by
      rw [pieces_run nonempty whole ends]
      exact List.mem_cons_self ..
    cases before using List.reverseRecOn with
    | nil => exact here
    | append_singleton front last _ =>
      have separates : isSeparator last = true := starts last (by simp)
      rw [List.append_assoc, List.append_assoc, List.singleton_append,
        pieces_append_separator separates]
      exact List.mem_append_right _ here

variable {name : String} {text : SourceText} {elements targets : List Expr} {value : Expr}
  {before after : List Stmt}

theorem mem_namesInText : name ∈ namesInText text ↔
    IsPiece (SourceText.ofString name).points text.points := by
  rw [namesInText, List.mem_filterMap, ← mem_pieces]
  constructor
  · rintro ⟨piece, member, known⟩
    rwa [← SourceText.eq_ofString known]
  · intro member
    exact ⟨_, member, SourceText.toString?_ofString name⟩

theorem mem_namesInElements : name ∈ namesInElements elements ↔
    .text (.ofString name) ∈ elements := by
  rw [namesInElements, List.mem_filterMap]
  constructor
  · rintro ⟨element, member, known⟩
    cases element with
    | text value => rwa [← SourceText.eq_ofString known]
    | _ => cases known
  · intro member
    exact ⟨_, member, SourceText.toString?_ofString name⟩

theorem mem_listedNames : name ∈ (listedNames? value).getD [] ↔ value.Lists name := by
  cases value with
  | text value =>
    refine mem_namesInText.trans ⟨.text, fun lists => ?_⟩
    cases lists with
    | text piece => exact piece
  | list elements =>
    refine mem_namesInElements.trans ⟨.list, fun lists => ?_⟩
    cases lists with
    | list element => exact element
  | tuple elements =>
    refine mem_namesInElements.trans ⟨.tuple, fun lists => ?_⟩
    cases lists with
    | tuple element => exact element
  | _ => exact ⟨fun member => absurd member List.not_mem_nil, fun lists => nomatch lists⟩

theorem any_isName : targets.any (isName name) = true ↔ .name name ∈ targets := by
  rw [List.any_eq_true]
  constructor
  · rintro ⟨target, member, isTarget⟩
    cases target with
    | name id =>
      obtain rfl : id = name := by simpa [isName] using isTarget
      exact member
    | _ => cases isTarget
  · intro member
    exact ⟨_, member, by simp [isName]⟩

theorem mem_boundNames_of_target (target : .name name ∈ targets) :
    name ∈ (Stmt.assign targets value).boundNames :=
  List.mem_map.mpr ⟨⟨name, false⟩,
    List.mem_flatMap.mpr ⟨_, target, List.mem_singleton_self _⟩, rfl⟩

/-- Statements that do not bind the list are passed over. -/
theorem ignoredNames_append (unbound : ∀ other ∈ before, ignoreName ∉ other.boundNames)
    (rest : List Stmt) : ignoredNames (before ++ rest) = ignoredNames rest := by
  induction before with
  | nil => rfl
  | cons first others ih =>
    obtain ⟨notFirst, notOthers⟩ := List.forall_mem_cons.mp unbound
    rw [List.cons_append]
    cases first with
    | assign targets value =>
      have noTarget : ¬targets.any (isName ignoreName) = true := fun target =>
        notFirst (mem_boundNames_of_target (any_isName.mp target))
      rw [ignoredNames, if_neg noTarget, ih notOthers]
    | _ => exact ih notOthers

theorem ignoredNames_unbound (unbound : ∀ other ∈ after, ignoreName ∉ other.boundNames) :
    ignoredNames after = [] := by
  rw [← List.append_nil after, ignoredNames_append unbound, ignoredNames]

/-- The list that a body assigns once, alone or in a chain. -/
theorem mem_ignoredNames_assign
    (once : ∀ other ∈ before ++ after, ignoreName ∉ other.boundNames)
    (target : .name ignoreName ∈ targets) :
    name ∈ ignoredNames (before ++ .assign targets value :: after) ↔ value.Lists name := by
  obtain ⟨notBefore, notAfter⟩ := List.forall_mem_append.mp once
  rw [ignoredNames_append notBefore, ignoredNames, if_pos (any_isName.mpr target),
    ignoredNames_unbound notAfter, mem_listedNames]

/-- The list that a body assigns once, with an annotation. -/
theorem ignoredNames_annotated {type : Expr} {assigned : Option Expr}
    (once : ∀ other ∈ before ++ after, ignoreName ∉ other.boundNames) :
    ignoredNames (before ++ .annotated (.name ignoreName) type assigned :: after) = [] := by
  obtain ⟨notBefore, notAfter⟩ := List.forall_mem_append.mp once
  rw [ignoredNames_append notBefore, ignoredNames, ignoredNames_unbound notAfter]
  exact fun _ _ same => nomatch same

theorem not_constant_of_ignored {body : List Stmt} (ignored : name ∈ ignoredNames body) :
    ⟨name, true⟩ ∉ members body := by
  rw [constant_mem_members]
  rintro ⟨stmt, -, value, -, -, isName⟩
  exact (isMemberName_iff.mp isName).1 ignored

/-- In a body that binds the list once, alone or in a chain, the ignored names are those listed, and
none of them is a constant. When the list is bound with an annotation, no name is ignored, and the
constants are those of a body without a list. -/
theorem listed_names_ignored {body : List Stmt} {stmt : Stmt}
    (inBody : body = before ++ stmt :: after)
    (once : ∀ other ∈ before ++ after, ignoreName ∉ other.boundNames) :
    (∀ targets value, stmt = .assign targets value → .name ignoreName ∈ targets →
      ∀ name, (name ∈ ignoredNames body ↔ value.Lists name) ∧
        (value.Lists name → ⟨name, true⟩ ∉ members body)) ∧
    (∀ type value, stmt = .annotated (.name ignoreName) type (some value) →
      ignoredNames body = [] ∧ ∀ name, ⟨name, true⟩ ∈ members body ↔
        ∃ stmt ∈ body, ∃ assigned, stmt.Assigns name assigned ∧ isMemberValue assigned = true ∧
          isMemberName name [] = true) := by
  subst inBody
  constructor
  · rintro targets value rfl target name
    have listed : name ∈ ignoredNames (before ++ .assign targets value :: after) ↔
        value.Lists name := mem_ignoredNames_assign once target
    exact ⟨listed, fun lists => not_constant_of_ignored (listed.mpr lists)⟩
  · rintro type value rfl
    have unread : ignoredNames (before ++
        .annotated (.name ignoreName) type (some value) :: after) = [] :=
      ignoredNames_annotated once
    exact ⟨unread, fun name => by rw [constant_mem_members, unread]⟩

/-- The body `_ignore_ = "T, U"; A, T = …; U: … = …`. -/
def listingBody : List Stmt :=
  [.assign [.name ignoreName] (.text (.ofString "T, U")),
    .assign [.tuple [.name "A", .name "T"]] .constant,
    .annotated (.name "U") .constant (some .constant)]

theorem listed_names_ignored_in_text :
    ⟨"T", true⟩ ∉ members listingBody ∧ ⟨"U", true⟩ ∉ members listingBody ∧
      ⟨"A", true⟩ ∈ members listingBody := by
  have ignored := (@listed_names_ignored [] _ listingBody _ rfl (by decide)).1 _ _ rfl (by simp)
  exact ⟨(ignored "T").2 (mem_listedNames.mp (by decide)),
    (ignored "U").2 (mem_listedNames.mp (by decide)), by decide⟩

/-- The body `_ignore_: … = ["T"]; T = …`. -/
def annotatedListBody : List Stmt :=
  [.annotated (.name ignoreName) .constant (some (.list [.text (.ofString "T")])),
    .assign [.name "T"] .constant]

/-- The name is listed, and it is a constant of the body. -/
theorem annotated_list_unread :
    (Expr.list [.text (.ofString "T")]).Lists "T" ∧ ⟨"T", true⟩ ∈ members annotatedListBody ∧
    membersInText "class C(Enum):\n _ignore_: list = ['T']\n T = 1\n A = 2\n" =
      some [[⟨"_ignore_", false⟩, ⟨"T", true⟩, ⟨"A", true⟩]] :=
  ⟨.list (by simp), by decide, by decide +kernel⟩

end Declaration

end EnumLookup
