import EnumLookup.Source.Grammar.Basic
import Mathlib

set_option mvcgen.warning false

/-!
What parsers leave. A parser takes tokens from the front, so that the tokens left are always an end
of those that it was given.
-/
namespace EnumLookup.Source.Parser

open Std.Do

variable {α : Type} {start : List Token}

attribute [local grind →] List.IsSuffix.trans

/-- The parser goes on with an end of these tokens when it is given one. -/
abbrev Advances (start : List Token) (parser : Parser α) : Prop :=
  ⦃fun tokens => ⌜tokens <:+ start⌝⦄ parser ⦃⇓? _ tokens => ⌜tokens <:+ start⌝⦄

/-- A triple speaks of the outcomes of a parser alone: one that fails meets every triple. -/
theorem triple_iff {parser : Parser α} {before : List Token → Prop}
    {post : α → List Token → Prop} :
    ⦃fun tokens => ⌜before tokens⌝⦄ parser ⦃⇓? value left => ⌜post value left⌝⦄ ↔
      ∀ tokens value left, before tokens → parser tokens = some (value, left) → post value left := by
  constructor
  · intro triple tokens value left holds outcome
    have result := triple tokens holds
    change (wp⟦parser tokens⟧ (fun (value, left) => ⌜post value left⌝, ExceptConds.true)).down
      at result
    rw [outcome] at result
    exact result
  · intro outcomes tokens holds
    change (wp⟦parser tokens⟧ (fun (value, left) => ⌜post value left⌝, ExceptConds.true)).down
    cases outcome : parser tokens with
    | none => trivial
    | some result => exact outcomes tokens result.1 result.2 holds outcome

theorem advances_of {parser : Parser α}
    (leaves : ∀ tokens value left, parser tokens = some (value, left) → left <:+ tokens) :
    Advances start parser :=
  triple_iff.mpr fun tokens value left inside outcome =>
    (leaves tokens value left outcome).trans inside

theorem Advances.leaves {parser : Parser α} (advances : ∀ start, Advances start parser)
    {tokens left : List Token} {value : α} (outcome : parser tokens = some (value, left)) :
    left <:+ tokens :=
  triple_iff.mp (advances tokens) tokens value left (List.suffix_refl tokens) outcome

@[spec] theorem peek_advances : Advances start peek :=
  advances_of fun tokens _ _ outcome => by
    cases outcome
    exact List.suffix_refl tokens

@[spec] theorem peekSecond_advances : Advances start peekSecond :=
  advances_of fun tokens _ _ outcome => by
    cases outcome
    exact List.suffix_refl tokens

@[spec] theorem fail_advances : Advances start (fail : Parser α) :=
  advances_of fun _ _ _ outcome => by cases outcome

@[spec] theorem next_advances : Advances start next :=
  advances_of fun tokens _ _ outcome => by
    cases tokens with
    | nil => cases outcome
    | cons =>
      cases outcome
      exact List.suffix_cons ..

@[spec] theorem take?_advances (kind : TokenKind) : Advances start (take? kind) :=
  advances_of fun tokens _ _ outcome => by
    cases tokens with
    | nil =>
      cases outcome
      exact List.suffix_refl []
    | cons token =>
      rw [take?] at outcome
      split at outcome
      · cases outcome
        exact List.suffix_cons token _
      · cases outcome
        exact List.suffix_refl _

@[spec] theorem identifier_advances : Advances start identifier :=
  advances_of fun tokens _ _ outcome => by
    unfold identifier at outcome
    split at outcome
    · cases outcome
      exact List.suffix_cons ..
    · cases outcome

-- From here on the parts of a parser are looked up by their tags, and what is left to show is that
-- ends of ends are ends, which grind knows by transitivity.

@[spec] theorem require_advances (condition : Bool) : Advances start (require condition) := by
  mvcgen [require]

@[spec] theorem expect_advances (kind : TokenKind) : Advances start (expect kind) := by
  mvcgen [expect] with grind

@[spec] theorem nextIs_advances (kind : TokenKind) : Advances start (nextIs kind) := by
  mvcgen [nextIs] with grind

@[spec] theorem op?_advances (text : String) : Advances start (op? text) := take?_advances _
@[spec] theorem op_advances (text : String) : Advances start (op text) := expect_advances _
@[spec] theorem nextIsOp_advances (text : String) : Advances start (nextIsOp text) :=
  nextIs_advances _
@[spec] theorem keyword?_advances (word : String) : Advances start (keyword? word) :=
  take?_advances _
@[spec] theorem keyword_advances (word : String) : Advances start (keyword word) :=
  expect_advances _
@[spec] theorem nextIsKeyword_advances (word : String) : Advances start (nextIsKeyword word) :=
  nextIs_advances _

@[spec] theorem nextIsWord_advances (word : String) : Advances start (nextIsWord word) := by
  mvcgen [nextIsWord] with grind

section Combinators

@[spec] theorem bounded_advances {loop : List Token → Parser α}
    (loops : ∀ bound start, Advances start (loop bound)) : Advances start (bounded loop) :=
  fun tokens inside => loops tokens start tokens inside

@[spec] theorem when?_advances {condition : Parser Bool} {parser : Parser α}
    (decides : ∀ start, Advances start condition) (parses : ∀ start, Advances start parser) :
    Advances start (when? condition parser) := by
  mvcgen [when?, decides, parses] with grind

theorem manyFrom_advances {continues : Parser Bool} {parser : Parser α}
    (decides : ∀ start, Advances start continues) (parses : ∀ start, Advances start parser)
    (bound start : List Token) : Advances start (manyFrom continues parser bound) := by
  induction bound with
  | nil => exact fail_advances
  | cons _ bound ih => mvcgen [manyFrom, decides, parses, ih] with grind

@[spec] theorem many_advances {continues : Parser Bool} {parser : Parser α}
    (decides : ∀ start, Advances start continues) (parses : ∀ start, Advances start parser) :
    Advances start (many continues parser) :=
  bounded_advances (manyFrom_advances decides parses)

@[spec] theorem separated_advances (separator : String) {parser : Parser α}
    (parses : ∀ start, Advances start parser) : Advances start (separated separator parser) := by
  mvcgen [separated, parses] with grind

theorem listedFrom_advances {atEnd : Parser Bool} {parser : Parser α}
    (decides : ∀ start, Advances start atEnd) (parses : ∀ start, Advances start parser)
    (bound start : List Token) : Advances start (listedFrom atEnd parser bound) := by
  induction bound with
  | nil => exact fail_advances
  | cons _ bound ih => mvcgen [listedFrom, decides, parses, ih] with grind

@[spec] theorem listed_advances {atEnd : Parser Bool} {parser : Parser α}
    (decides : ∀ start, Advances start atEnd) (parses : ∀ start, Advances start parser) :
    Advances start (listed atEnd parser) :=
  bounded_advances (listedFrom_advances decides parses)

@[spec] theorem orElse_advances {first second : Parser α} (one : ∀ start, Advances start first)
    (two : ∀ start, Advances start second) : Advances start (orElse first second) :=
  advances_of fun tokens value rest outcome => by
    unfold orElse at outcome
    split at outcome
    · next found =>
      cases outcome
      exact Advances.leaves one found
    · exact Advances.leaves two outcome

theorem chain_go_advances {step : α → Parser α} {continues : Parser Bool}
    (steps : ∀ value start, Advances start (step value))
    (decides : ∀ start, Advances start continues) (bound : List Token) (value : α)
    (start : List Token) : Advances start (chain.go step continues bound value) := by
  induction bound generalizing value with
  | nil => exact fail_advances
  | cons _ bound ih => mvcgen [chain.go, decides, steps, ih] with grind

@[spec] theorem chain_advances {first : Parser α} {continues : Parser Bool} {step : α → Parser α}
    (begins : ∀ start, Advances start first) (decides : ∀ start, Advances start continues)
    (steps : ∀ value start, Advances start (step value)) :
    Advances start (chain first continues step) := by
  mvcgen [chain, begins]
  · grind
  · exact chain_go_advances steps decides _ _ _

end Combinators

end EnumLookup.Source.Parser
