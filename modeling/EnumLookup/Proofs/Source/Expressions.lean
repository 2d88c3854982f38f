import EnumLookup.Proofs.Source.Advancing
import EnumLookup.Source.Grammar.Expression
import Mathlib

set_option mvcgen.warning false

/-!
What the parsers of expressions leave: an end of the tokens, at every level of the grammar.
-/
namespace EnumLookup.Source

open EnumLookup.Source.Parser Std.Do

attribute [local grind →] List.IsSuffix.trans

variable {start : List Token}

@[spec] theorem Parser.nextStartsExpression_advances : Advances start nextStartsExpression := by
  mvcgen [nextStartsExpression] with grind

@[spec] theorem Parser.nextStartsClause_advances : Advances start nextStartsClause := by
  mvcgen [nextStartsClause] with grind

@[spec] theorem tupleOf_advances {item : Parser Expr} (items : ∀ start, Advances start item) :
    Advances start (tupleOf item) := by
  mvcgen [tupleOf, items] with grind

/-- The parsers for nested expressions take tokens from the front. -/
class ExprGrammar.Advancing (g : ExprGrammar) : Prop where
  expression : ∀ start, Advances start g.expression
  disjunction : ∀ start, Advances start g.disjunction
  inversion : ∀ start, Advances start g.inversion
  bitwiseOr : ∀ start, Advances start g.bitwiseOr
  factor : ∀ start, Advances start g.factor
  primary : ∀ start, Advances start g.primary

class ParameterStyle.Advancing (style : ParameterStyle) : Prop where
  typed : ∀ start, Advances start style.typed
  starTyped : ∀ start, Advances start style.starTyped

namespace ExprGrammar

variable (g : ExprGrammar)

@[spec] theorem isString_advances : Advances start isString := by
  mvcgen [isString] with grind

@[spec] theorem stringLiteral_advances : Advances start stringLiteral :=
  advances_of fun tokens _ _ outcome => by
    unfold stringLiteral at outcome
    split at outcome
    · cases outcome
      exact List.suffix_cons ..
    · cases outcome

theorem joined_advances (literals : List (StringKind × List Char)) :
    Advances start fun tokens => (g.joined literals).map (·, tokens) :=
  advances_of fun tokens _ _ outcome => by
    obtain ⟨value, -, same⟩ := Option.map_eq_some_iff.mp outcome
    cases same
    exact List.suffix_refl tokens

@[spec] theorem strings_advances : Advances start g.strings := by
  mvcgen [strings]
  next inside literals =>
    exact fun tokens left => g.joined_advances literals tokens (left.trans inside)

variable [g.Advancing] (style : ParameterStyle) [style.Advancing]

@[spec] theorem expression_advances : Advances start g.expression := Advancing.expression start
@[spec] theorem disjunction_advances : Advances start g.disjunction := Advancing.disjunction start
@[spec] theorem inversion_advances : Advances start g.inversion := Advancing.inversion start
@[spec] theorem bitwiseOr_advances : Advances start g.bitwiseOr := Advancing.bitwiseOr start
@[spec] theorem factor_advances : Advances start g.factor := Advancing.factor start
@[spec] theorem primary_advances : Advances start g.primary := Advancing.primary start
@[spec] theorem typed_advances : Advances start style.typed := ParameterStyle.Advancing.typed start
@[spec] theorem starTyped_advances : Advances start style.starTyped :=
  ParameterStyle.Advancing.starTyped start

@[spec] theorem named_advances : Advances start g.named := by
  mvcgen [named] with grind

@[spec] theorem starred_advances {plain : Parser Expr} (parses : ∀ start, Advances start plain) :
    Advances start (g.starred plain) := by
  mvcgen [starred, parses] with grind

@[spec] theorem starNamed_advances : Advances start g.starNamed :=
  g.starred_advances fun _ => g.named_advances

@[spec] theorem starExpressions_advances : Advances start g.starExpressions :=
  tupleOf_advances fun _ => g.starred_advances fun _ => g.expression_advances

@[spec] theorem yieldExpr_advances : Advances start g.yieldExpr := by
  mvcgen [yieldExpr] with grind

@[spec] theorem starTarget_advances : Advances start g.starTarget := by
  mvcgen [starTarget] with grind

@[spec] theorem starTargets_advances : Advances start g.starTargets :=
  tupleOf_advances fun _ => g.starTarget_advances

@[spec] theorem clause_advances : Advances start g.clause := by
  mvcgen [clause] with grind

@[spec] theorem comprehension_advances (element : List Expr) :
    Advances start (g.comprehension element) := by
  mvcgen [comprehension] with grind

@[spec] theorem parameter_advances (state : ParameterState) :
    Advances start (g.parameter style state) := by
  mvcgen [parameter] with grind

@[spec] theorem parametersFrom_advances (bound : List Token) (state : ParameterState) :
    Advances start (g.parametersFrom style bound state) := by
  induction bound generalizing state start with
  | nil => exact fail_advances
  | cons _ bound ih => mvcgen [parametersFrom, ih] with grind

@[spec] theorem parameters_advances : Advances start (g.parameters style) :=
  bounded_advances fun bound _ => g.parametersFrom_advances style bound _

instance : lambdaStyle.Advancing where
  typed _ := advances_of fun tokens _ _ outcome => by
    cases outcome
    exact List.suffix_refl tokens
  starTyped _ := advances_of fun tokens _ _ outcome => by
    cases outcome
    exact List.suffix_refl tokens

@[spec] theorem lambda_advances : Advances start g.lambda := by
  mvcgen [lambda] with grind

@[spec] theorem argument_advances (phase : ArgumentPhase) : Advances start (g.argument phase) := by
  mvcgen [argument] with grind

@[spec] theorem argumentsFrom_advances (bound : List Token) (phase : ArgumentPhase) :
    Advances start (g.argumentsFrom bound phase) := by
  induction bound generalizing phase start with
  | nil => exact fail_advances
  | cons _ bound ih => mvcgen [argumentsFrom, ih] with grind

@[spec] theorem arguments_advances : Advances start g.arguments := by
  mvcgen [arguments] with grind

@[spec] theorem callArguments_advances : Advances start g.callArguments := by
  mvcgen [callArguments] with grind

@[spec] theorem atBoundEnd_advances : Advances start atBoundEnd := by
  mvcgen [atBoundEnd] with grind

@[spec] theorem bound_advances : Advances start g.bound := by
  mvcgen [bound] with grind

@[spec] theorem sliceAfter_advances (lower : List Expr) : Advances start (g.sliceAfter lower) := by
  mvcgen [sliceAfter] with grind

@[spec] theorem index_advances : Advances start g.index := by
  mvcgen [index] with grind

@[spec] theorem subscriptIndex_advances : Advances start g.subscriptIndex := by
  mvcgen [subscriptIndex] with grind

@[spec] theorem parenthesised_advances : Advances start g.parenthesised := by
  mvcgen [parenthesised] with grind

@[spec] theorem bracketed_finish_advances (first : Expr) :
    Advances start (bracketed.finish g first) := by
  mvcgen [bracketed.finish] with grind

@[spec] theorem bracketed_advances : Advances start g.bracketed := by
  mvcgen [bracketed] with grind

@[spec] theorem entry_advances : Advances start g.entry := by
  mvcgen [entry] with grind

@[spec] theorem entriesAfter_advances (first : List Expr) :
    Advances start (g.entriesAfter first) := by
  mvcgen [entriesAfter] with grind

@[spec] theorem braced_items_advances (first : Expr) : Advances start (braced.items g first) := by
  mvcgen [braced.items] with grind

@[spec] theorem braced_finish_advances (element : List Expr) :
    Advances start (braced.finish g element) := by
  mvcgen [braced.finish] with grind

@[spec] theorem braced_advances : Advances start g.braced := by
  mvcgen [braced] with grind

@[spec] theorem atom_advances : Advances start g.atom := by
  mvcgen [atom] with grind

@[spec] theorem nextIsTrailer_advances : Advances start nextIsTrailer := by
  mvcgen [nextIsTrailer] with grind

@[spec] theorem trailer_advances (value : Expr) : Advances start (g.trailer value) := by
  mvcgen [trailer] with grind

@[spec] theorem primaryLevel_advances : Advances start g.primaryLevel :=
  chain_advances (fun _ => g.atom_advances) (fun _ => nextIsTrailer_advances)
    fun value _ => g.trailer_advances value

@[spec] theorem awaited_advances : Advances start g.awaited := by
  mvcgen [awaited] with grind

@[spec] theorem power_advances : Advances start g.power := by
  mvcgen [power] with grind

@[spec] theorem nextIsOneOf_advances (ops : List String) : Advances start (nextIsOneOf ops) := by
  mvcgen [nextIsOneOf] with grind

@[spec] theorem factorLevel_advances : Advances start g.factorLevel := by
  mvcgen [factorLevel] with grind

theorem leftChain_advances (ops : List String) {operand : Parser Expr}
    (operands : ∀ start, Advances start operand) : Advances start (leftChain ops operand) := by
  mvcgen [leftChain, operands] with grind

@[spec] theorem bitwiseOrLevel_advances : Advances start g.bitwiseOrLevel :=
  leftChain_advances _ fun _ => leftChain_advances _ fun _ => leftChain_advances _ fun _ =>
    leftChain_advances _ fun _ => leftChain_advances _ fun _ => leftChain_advances _ fun _ =>
      g.factorLevel_advances

@[spec] theorem nextIsComparison_advances : Advances start nextIsComparison := by
  mvcgen [nextIsComparison] with grind

@[spec] theorem comparisonSign_advances : Advances start comparisonSign := by
  mvcgen [comparisonSign] with grind

@[spec] theorem comparison_advances : Advances start g.comparison := by
  mvcgen [comparison] with grind

@[spec] theorem inversionLevel_advances : Advances start g.inversionLevel := by
  mvcgen [inversionLevel] with grind

theorem wordChain_advances (word : String) {operand : Parser Expr}
    (operands : ∀ start, Advances start operand) : Advances start (wordChain word operand) := by
  mvcgen [wordChain, operands] with grind

@[spec] theorem disjunctionLevel_advances : Advances start g.disjunctionLevel :=
  wordChain_advances _ fun _ => wordChain_advances _ fun _ => g.inversionLevel_advances

@[spec] theorem expressionLevel_advances : Advances start g.expressionLevel := by
  mvcgen [expressionLevel] with grind

instance : g.above.Advancing where
  expression _ := g.expressionLevel_advances
  disjunction _ := g.disjunctionLevel_advances
  inversion _ := g.inversionLevel_advances
  bitwiseOr _ := g.bitwiseOrLevel_advances
  factor _ := g.factorLevel_advances
  primary _ := g.primaryLevel_advances

instance (named? : String → Option Nat) (depth : Nat) : (ofDepth named? depth).Advancing := by
  induction depth with
  | zero => constructor <;> exact fun _ => fail_advances
  | succ depth ih => exact inferInstanceAs (ofDepth named? depth).above.Advancing

end ExprGrammar

end EnumLookup.Source
