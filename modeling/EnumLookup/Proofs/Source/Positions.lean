import EnumLookup.Proofs.Source.ClassNames
import Mathlib.Data.Prod.Lex

/-!
The places of classes in a source. The lexer goes on to later places, and the word `class` takes
characters, so no two class statements of a source start at one place.
-/
namespace EnumLookup.Source

open Declaration

namespace Position

/-- Positions in the order of the text: by lines, then by columns. -/
def place (position : Position) : ℕ ×ₗ ℕ := toLex (position.line, position.column)

theorem place_lt_after (position : Position) (c : Char) :
    position.place < (position.after c).place := by
  unfold after
  split
  · exact Prod.Lex.toLex_lt_toLex.mpr (.inl (Nat.lt_succ_self position.line))
  · exact Prod.Lex.toLex_lt_toLex.mpr (.inr ⟨rfl, Nat.lt_add_of_pos_right c.utf8Size_pos⟩)

theorem place_le_afterAll (position : Position) (cs : List Char) :
    position.place ≤ (position.afterAll cs).place := by
  induction cs generalizing position with
  | nil => exact le_refl _
  | cons c rest ih => exact (place_lt_after position c).le.trans (ih (position.after c))

theorem place_lt_afterAll (position : Position) {cs : List Char} (some : cs ≠ []) :
    position.place < (position.afterAll cs).place := by
  cases cs with
  | nil => exact absurd rfl some
  | cons c rest => exact (place_lt_after position c).trans_le (place_le_afterAll _ rest)

end Position

/-- The positions follow each other in the text, from this place on. -/
structure Ascend (start : ℕ ×ₗ ℕ) (positions : List Position) : Prop where
  ordered : (positions.map Position.place).Pairwise (· < ·)
  behind : ∀ position ∈ positions, start ≤ position.place

namespace Ascend

variable {start middle : ℕ ×ₗ ℕ} {positions : List Position}

theorem nil (start : ℕ ×ₗ ℕ) : Ascend start [] := ⟨.nil, by simp⟩

theorem of_le (later : start ≤ middle) (ascend : Ascend middle positions) :
    Ascend start positions :=
  ⟨ascend.ordered, fun position member => later.trans (ascend.behind position member)⟩

theorem cons {position : Position} (later : position.place < middle)
    (ascend : Ascend middle positions) : Ascend position.place (position :: positions) := by
  refine ⟨List.pairwise_cons.mpr ⟨?_, ascend.ordered⟩, List.forall_mem_cons.mpr ⟨le_refl _, ?_⟩⟩
  · intro place member
    obtain ⟨other, inRest, rfl⟩ := List.mem_map.mp member
    exact later.trans_le (ascend.behind other inRest)
  · intro other inRest
    exact later.le.trans (ascend.behind other inRest)

end Ascend

namespace Lexer

theorem place_le_skip (lexer : Lexer) (count : Nat) :
    lexer.position.place ≤ (lexer.skip count).position.place :=
  Position.place_le_afterAll _ _

theorem place_lt_skip {lexer : Lexer} {count : Nat} (some : 0 < count) (more : lexer.input ≠ []) :
    lexer.position.place < (lexer.skip count).position.place := by
  apply Position.place_lt_afterAll
  rw [ne_eq, List.take_eq_nil_iff, not_or]
  exact ⟨some.ne', more⟩

theorem place_le_skipBlanks (lexer : Lexer) :
    lexer.position.place ≤ lexer.skipBlanks.position.place :=
  (place_le_skip lexer _).trans (place_le_skip _ _)

/-- A keyword has characters. -/
theorem word?_keyword {chars : List Char} {word : String}
    (taken : word? chars = some (.keyword word)) : chars ≠ [] := by
  rintro rfl
  cases taken

theorem tokenAt_keyword {input : List Char} {word : String} {length : Nat}
    (taken : tokenAt input = some (.keyword word, length)) : 0 < length ∧ input ≠ [] := by
  unfold tokenAt at taken
  split at taken
  · obtain ⟨_, -, same⟩ := Option.map_eq_some_iff.mp taken
    cases same
  · split at taken
    · cases taken
    · split at taken
      · obtain ⟨kind, isWord, same⟩ := Option.map_eq_some_iff.mp taken
        cases same
        exact ⟨List.length_pos_iff.mpr (word?_keyword isWord), List.cons_ne_nil _ _⟩
      · split at taken
        · obtain ⟨_, -, same⟩ := Option.map_eq_some_iff.mp taken
          cases same
        · obtain ⟨_, -, same⟩ := Option.map_eq_some_iff.mp taken
          cases same

/-- What comes between the steps of the lexer: the words of classes that a step finds follow each
other, and so do those that are found from where it ends. -/
def Steps (lexer next : Lexer) (first : List Token) : Prop :=
  ∀ rest, Ascend next.position.place (classPositions rest) →
    Ascend lexer.position.place (classPositions (first ++ rest))

variable {lexer next : Lexer} {first : List Token}

/-- A step without the word of a class does not go back. -/
theorem Steps.of_le (later : lexer.position.place ≤ next.position.place)
    (none : classPositions first = []) : lexer.Steps next first := by
  intro rest ascend
  rw [classPositions_append, none, List.nil_append]
  exact ascend.of_le later

theorem startLine_steps (started : lexer.startLine = some (first, next)) :
    lexer.Steps next first := by
  unfold startLine at started
  obtain ⟨opening, -, started⟩ := Option.bind_eq_some_iff.mp started
  dsimp only at started
  have toText := place_le_skip lexer opening.length
  have toEnd := toText.trans (place_le_skip _ (commentLength (lexer.skip opening.length).input))
  split at started
  · cases started
    exact .of_le (toEnd.trans (place_le_skip _ _)) rfl
  · split at started
    · cases started
      exact .of_le toEnd rfl
    · obtain ⟨⟨kinds, indents⟩, changed, same⟩ := Option.bind_eq_some_iff.mp started
      cases same
      refine .of_le toText (List.map_eq_nil_iff.mpr (List.filter_eq_nil_iff.mpr ?_))
      intro token member
      obtain ⟨kind, inKinds, rfl⟩ := List.mem_map.mp member
      rcases changeIndent_names changed kind inKinds with rfl | rfl
      · exact Bool.false_ne_true
      · exact Bool.false_ne_true

theorem nextToken_steps (taken : lexer.nextToken = some (first, next)) :
    lexer.Steps next first := by
  unfold nextToken at taken
  split at taken
  · dsimp only at taken
    split at taken
    · cases taken
      exact .of_le (place_le_skip lexer 1) rfl
    · cases taken
      exact .of_le (place_le_skip lexer 1) rfl
  · split at taken
    · cases taken
    · cases taken
      exact .of_le (place_le_skip lexer 2) rfl
  · obtain ⟨⟨kind, length⟩, isToken, taken⟩ := Option.bind_eq_some_iff.mp taken
    obtain ⟨single, position⟩ : first = [⟨kind, lexer.position⟩] ∧
        next.position = (lexer.skip length).position := by
      dsimp only at taken
      split at taken
      · obtain ⟨brackets, -, same⟩ := Option.bind_eq_some_iff.mp taken
        cases same
        exact ⟨rfl, rfl⟩
      · cases taken
        exact ⟨rfl, rfl⟩
    subst single
    by_cases opens : (⟨kind, lexer.position⟩ : Token).opensClass = true
    · obtain rfl : kind = .keyword "class" := of_decide_eq_true opens
      obtain ⟨some, more⟩ := tokenAt_keyword isToken
      intro rest ascend
      rw [List.singleton_append, classPositions_cons opens]
      refine ascend.cons ?_
      rw [position]
      exact place_lt_skip some more
    · refine .of_le ?_ (List.map_eq_nil_iff.mpr (List.filter_eq_nil_iff.mpr ?_))
      · rw [position]
        exact place_le_skip lexer length
      · rwa [List.forall_mem_singleton]

theorem tokens_ascend {fuel : Nat} {found : List Token} (lexed : tokens fuel lexer = some found) :
    Ascend lexer.position.place (classPositions found) := by
  induction fuel generalizing lexer found with
  | zero => cases lexed
  | succ fuel ih =>
    unfold tokens at lexed
    split at lexed
    · obtain ⟨⟨first, next⟩, started, lexed⟩ := Option.bind_eq_some_iff.mp lexed
      obtain ⟨rest, others, same⟩ := Option.bind_eq_some_iff.mp lexed
      cases same
      exact startLine_steps started rest (ih others)
    · refine .of_le lexer.place_le_skipBlanks ?_
      dsimp only at lexed
      split at lexed
      · split at lexed <;> cases lexed
        exact .nil _
      · obtain ⟨⟨first, next⟩, taken, lexed⟩ := Option.bind_eq_some_iff.mp lexed
        obtain ⟨rest, others, same⟩ := Option.bind_eq_some_iff.mp lexed
        cases same
        exact nextToken_steps taken rest (ih others)

end Lexer

/-- The classes of a module follow each other in its text. -/
theorem parseModule_ordered [Text.Characters] {text : List Char} {body : List Stmt}
    (parsed : parseModule text = .ok body) :
    ((headers body).map (·.position.place)).Pairwise (· < ·) := by
  obtain ⟨tokens, lexed, spell⟩ := parseModule_spell parsed
  have ordered := (Lexer.tokens_ascend lexed).ordered.sublist (spell.ordered.map Position.place)
  rwa [List.map_map] at ordered

/-- No two classes of a module start at one place. -/
theorem parseModule_positions [Text.Characters] {text : List Char} {body : List Stmt}
    (parsed : parseModule text = .ok body) : ((headers body).map (·.position)).Nodup := by
  apply List.Nodup.of_map Position.place
  rw [List.map_map]
  exact (parseModule_ordered parsed).imp fun earlier => earlier.ne

end EnumLookup.Source
