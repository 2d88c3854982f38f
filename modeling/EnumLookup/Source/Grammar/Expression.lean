import EnumLookup.Source.FormatString
import EnumLookup.Source.Grammar.Basic
import EnumLookup.Source.Grammar.Target
import EnumLookup.Source.Lexer

/-!
Expressions. A level of the grammar parses everything but what is nested, for which it
asks the level below; a limited number of levels makes the recursion end.
-/
namespace EnumLookup.Source

open EnumLookup.Source.Parser

/-- The parts of a level that nested expressions enter by, and the names of characters. -/
structure ExprGrammar where
  named? : String → Option Nat
  expression : Parser Expr
  disjunction : Parser Expr
  inversion : Parser Expr
  bitwiseOr : Parser Expr
  factor : Parser Expr
  primary : Parser Expr

def TokenKind.startsExpression : TokenKind → Bool
  | .name _ _ | .number _ | .string _ _ => true
  | .keyword word => ["None", "True", "False", "lambda", "not", "await"].contains word
  | .op text => ["(", "[", "\x7b", "-", "+", "~", "*", "..."].contains text
  | _ => false

def TokenKind.startsClause : TokenKind → Bool
  | .keyword word => word == "for" || word == "async"
  | _ => false

def Parser.nextStartsExpression : Parser Bool := return (← peek).startsExpression
def Parser.nextStartsClause : Parser Bool := return (← peek).startsClause

/-- Items with commas between them; one item with no comma after it stands for itself. -/
def tupleOf (item : Parser Expr) : Parser Expr := do
  let first ← item
  if ← op? "," then
    let rest ← listed (return !(← nextStartsExpression)) item
    return .tuple (first :: rest)
  else return first

/-- Positional arguments, starred ones among them, and the values of keyword arguments. -/
structure Arguments where
  positional : List Expr
  keywords : List Expr

/-- What may still come in a list of arguments: anything, nothing positional, or, after a
double star, only keywords and double stars. -/
inductive ArgumentPhase where
  | positional
  | keyword
  | mapping
  deriving DecidableEq

inductive ParameterPhase where
  /-- Parameters that may be positional. -/
  | plain
  /-- A star alone asks for a name after it. -/
  | bareStar
  | keywordOnly
  | closed
  deriving DecidableEq

structure ParameterState where
  phase : ParameterPhase
  parameterSeen : Bool
  slashSeen : Bool
  defaultSeen : Bool

structure ParameterStyle where
  typed : Parser (List Expr)
  starTyped : Parser (List Expr)
  close : String

namespace ExprGrammar

def named (g : ExprGrammar) : Parser Expr := do
  match ← peek, ← peekSecond with
  | .name _ id, .op ":=" =>
    let _ ← next
    let _ ← next
    return .compound [.name id, ← g.expression]
  | _, _ => g.expression

def starred (g : ExprGrammar) (plain : Parser Expr) : Parser Expr := do
  if ← op? "*" then return .starred (← g.bitwiseOr) else plain

def starNamed (g : ExprGrammar) : Parser Expr := g.starred g.named

def starExpressions (g : ExprGrammar) : Parser Expr := tupleOf (g.starred g.expression)

/-- The word `yield` has been seen. -/
def yieldExpr (g : ExprGrammar) : Parser Expr := do
  keyword "yield"
  if ← keyword? "from" then return .compound [← g.expression]
  match ← when? nextStartsExpression g.starExpressions with
  | some value => return .compound [value]
  | none => return .compound []

def starTarget (g : ExprGrammar) : Parser Expr := do
  let target ← if ← op? "*" then pure (.starred (← g.primary)) else g.primary
  require target.isStarTarget
  return target

def starTargets (g : ExprGrammar) : Parser Expr := tupleOf g.starTarget

def clause (g : ExprGrammar) : Parser (List Expr) := do
  let _ ← keyword? "async"
  keyword "for"
  let target ← g.starTargets
  keyword "in"
  let source ← g.disjunction
  let conditions ← many (nextIsKeyword "if") do
    keyword "if"
    g.disjunction
  return target :: source :: conditions

def comprehension (g : ExprGrammar) (element : List Expr) : Parser Expr := do
  let clauses ← many nextStartsClause g.clause
  return .compound (element ++ clauses.flatten)

def parameter (g : ExprGrammar) (style : ParameterStyle) (state : ParameterState) :
    Parser (ParameterState × List Expr) := do
  require (state.phase ≠ .closed)
  if ← op? "/" then
    require (state.phase = .plain && state.parameterSeen && !state.slashSeen)
    return ({ state with slashSeen := true }, [])
  else if ← op? "**" then
    require (state.phase ≠ .bareStar)
    let _ ← identifier
    return ({ state with phase := .closed }, ← style.typed)
  else if ← op? "*" then
    require (state.phase = .plain)
    if ← nextIsOp "," then return ({ state with phase := .bareStar }, [])
    let _ ← identifier
    return ({ state with phase := .keywordOnly }, ← style.starTyped)
  else
    let _ ← identifier
    let type ← style.typed
    let value ← when? (op? "=") g.expression
    let parts := type ++ value.toList
    if state.phase = .plain then
      require (value.isSome || !state.defaultSeen)
      let defaultSeen := value.isSome
      return ({ state with parameterSeen := true, defaultSeen }, parts)
    else return ({ state with phase := .keywordOnly }, parts)

def parametersFrom (g : ExprGrammar) (style : ParameterStyle) :
    List Token → ParameterState → Parser (List Expr)
  | [], _ => fail
  | _ :: bound, state => do
    if ← nextIsOp style.close then
      require (state.phase ≠ .bareStar)
      return []
    let (state, parts) ← g.parameter style state
    if ← op? "," then return parts ++ (← parametersFrom g style bound state)
    require (← nextIsOp style.close)
    require (state.phase ≠ .bareStar)
    return parts

/-- Parameters up to the closing sign, which is not taken. -/
def parameters (g : ExprGrammar) (style : ParameterStyle) : Parser (List Expr) :=
  bounded fun bound => g.parametersFrom style bound ⟨.plain, false, false, false⟩

def lambdaStyle : ParameterStyle := ⟨pure [], pure [], ":"⟩

def lambda (g : ExprGrammar) : Parser Expr := do
  keyword "lambda"
  let parts ← g.parameters lambdaStyle
  op ":"
  return .lambda (parts ++ [← g.expression])

def argument (g : ExprGrammar) (phase : ArgumentPhase) : Parser (ArgumentPhase × Arguments) := do
  if ← op? "*" then
    require (phase ≠ .mapping)
    return (phase, ⟨[.starred (← g.expression)], []⟩)
  else if ← op? "**" then
    return (.mapping, ⟨[], [← g.expression]⟩)
  else match ← peek, ← peekSecond with
  | .name _ _, .op "=" =>
    let _ ← next
    let _ ← next
    let phase := if phase = .positional then .keyword else phase
    return (phase, ⟨[], [← g.expression]⟩)
  | _, _ =>
    require (phase = .positional)
    return (phase, ⟨[← g.named], []⟩)

def argumentsFrom (g : ExprGrammar) : List Token → ArgumentPhase → Parser Arguments
  | [], _ => fail
  | _ :: bound, phase => do
    if ← nextIsOp ")" then return ⟨[], []⟩
    let (phase, first) ← g.argument phase
    if ← op? "," then
      let rest ← argumentsFrom g bound phase
      return ⟨first.positional ++ rest.positional, first.keywords ++ rest.keywords⟩
    else return first

/-- Arguments up to the closing parenthesis, which is taken. -/
def arguments (g : ExprGrammar) : Parser Arguments := do
  let found ← bounded fun bound => g.argumentsFrom bound .positional
  op ")"
  return found

/-- Arguments of a call, the opening parenthesis taken. A comprehension alone needs no
parentheses of its own. -/
def callArguments (g : ExprGrammar) : Parser (List Expr) := do
  if ← op? ")" then return []
  let (phase, first) ← g.argument .positional
  match first.positional, ← nextStartsClause with
  | [.starred _], true => fail
  | [element], true =>
    let whole ← g.comprehension [element]
    op ")"
    return [whole]
  | _, _ =>
    let rest ← if ← op? "," then
        bounded fun bound => g.argumentsFrom bound phase
      else pure ⟨[], []⟩
    op ")"
    return first.positional ++ first.keywords ++ rest.positional ++ rest.keywords

def atBoundEnd : Parser Bool := do
  match ← peek with
  | .op text => return text == ":" || text == "," || text == "]"
  | _ => return false

def bound (g : ExprGrammar) : Parser (List Expr) := do
  if ← atBoundEnd then return [] else return [← g.expression]

def sliceAfter (g : ExprGrammar) (lower : List Expr) : Parser Expr := do
  op ":"
  let upper ← g.bound
  let step ← when? (op? ":") g.bound
  return .compound (lower ++ upper ++ step.getD [])

/-- An index, a slice or a starred index. A named value is no bound of a slice. -/
def index (g : ExprGrammar) : Parser Expr := do
  if ← op? "*" then return .starred (← g.expression)
  if ← nextIsOp ":" then return ← g.sliceAfter []
  let isNamed := (← peekSecond) == .op ":="
  let value ← g.named
  if !isNamed && (← nextIsOp ":") then g.sliceAfter [value] else return value

/-- What stands in square brackets behind a value, the opening bracket taken. A starred index
makes a tuple even without a comma. -/
def subscriptIndex (g : ExprGrammar) : Parser Expr := do
  let first ← g.index
  if ← op? "," then
    let rest ← listed (nextIsOp "]") g.index
    op "]"
    return .tuple (first :: rest)
  op "]"
  match first with
  | .starred value => return .tuple [.starred value]
  | value => return value

def parenthesised (g : ExprGrammar) : Parser Expr := do
  op "("
  if ← op? ")" then return .tuple []
  if ← nextIsKeyword "yield" then
    let value ← g.yieldExpr
    op ")"
    return value
  let first ← g.starNamed
  match first, ← nextStartsClause with
  | .starred _, _ =>
    op ","
    let rest ← listed (nextIsOp ")") g.starNamed
    op ")"
    return .tuple (first :: rest)
  | _, true =>
    let value ← g.comprehension [first]
    op ")"
    return value
  | _, false =>
    if ← op? "," then
      let rest ← listed (nextIsOp ")") g.starNamed
      op ")"
      return .tuple (first :: rest)
    op ")"
    return first

def bracketed (g : ExprGrammar) : Parser Expr := do
  op "["
  if ← op? "]" then return .list []
  let first ← g.starNamed
  match first, ← nextStartsClause with
  | .starred _, _ => finish first
  | _, true =>
    let value ← g.comprehension [first]
    op "]"
    return value
  | _, false => finish first
where
  finish (first : Expr) : Parser Expr := do
    let rest ← if ← op? "," then listed (nextIsOp "]") g.starNamed else pure []
    op "]"
    return .list (first :: rest)

def entry (g : ExprGrammar) : Parser (List Expr) := do
  if ← op? "**" then return [← g.bitwiseOr]
  let key ← g.expression
  op ":"
  return [key, ← g.expression]

def entriesAfter (g : ExprGrammar) (first : List Expr) : Parser Expr := do
  let rest ← if ← op? "," then listed (nextIsOp "\x7d") g.entry else pure []
  op "\x7d"
  return .compound (first ++ rest.flatten)

def braced (g : ExprGrammar) : Parser Expr := do
  op "\x7b"
  if ← op? "\x7d" then return .compound []
  if ← nextIsOp "**" then return ← g.entriesAfter (← g.entry)
  let isNamed := (← peekSecond) == .op ":="
  let first ← g.starNamed
  match first with
  | .starred _ => items first
  | _ =>
    if !isNamed && (← op? ":") then
      let pair := [first, ← g.expression]
      if ← nextStartsClause then finish pair else g.entriesAfter pair
    else if ← nextStartsClause then finish [first]
    else items first
where
  items (first : Expr) : Parser Expr := do
    let rest ← if ← op? "," then listed (nextIsOp "\x7d") g.starNamed else pure []
    op "\x7d"
    return .compound (first :: rest)
  finish (element : List Expr) : Parser Expr := do
    let value ← g.comprehension element
    op "\x7d"
    return value

/-- The expression of a field in a format literal, read as if in parentheses. -/
def field (g : ExprGrammar) (text : List Char) : Option Expr := do
  let tokens ← tokenize (closeLastLine ('(' :: text ++ [')']))
  let (value, _) ← g.starExpressions tokens
  return value

def literalFields (g : ExprGrammar) (kind : StringKind) (body : List Char) : Option (List Expr) :=
  if kind.isFormat then do (← FormatString.fields g.named? kind.isRaw body).mapM g.field
  else (Literal.value? g.named? kind.isBytes kind.isRaw body).map fun _ => []

def literalText (g : ExprGrammar) (kind : StringKind) (body : List Char) : List Text.CodePoint :=
  (Literal.value? g.named? kind.isBytes kind.isRaw body).getD []

/-- Adjacent literals are one value. Bytes and text do not mix. -/
def joined (g : ExprGrammar) (literals : List (StringKind × List Char)) : Option Expr := do
  let fields ← literals.mapM fun (kind, body) => g.literalFields kind body
  if literals.all fun (kind, _) => kind.isBytes then return .constant
  if literals.any fun (kind, _) => kind.isBytes then none
  if literals.any fun (kind, _) => kind.isFormat then return .compound fields.flatten
  return .text ⟨literals.flatMap fun (kind, body) => g.literalText kind body⟩

def isString : Parser Bool := do
  match ← peek with
  | .string _ _ => return true
  | _ => return false

def stringLiteral : Parser (StringKind × List Char)
  | ⟨.string kind body, _⟩ :: rest => some ((kind, body), rest)
  | _ => none

def strings (g : ExprGrammar) : Parser Expr := do
  let literals ← many isString stringLiteral
  fun tokens => (g.joined literals).map (·, tokens)

def atom (g : ExprGrammar) : Parser Expr := do
  match ← peek with
  | .name _ id =>
    let _ ← next
    return .name id
  | .number _ =>
    let _ ← next
    return .constant
  | .string _ _ => g.strings
  | .keyword word =>
    require (["None", "True", "False"].contains word)
    let _ ← next
    return .constant
  | .op "(" => g.parenthesised
  | .op "[" => g.bracketed
  | .op "\x7b" => g.braced
  | .op "..." =>
    let _ ← next
    return .constant
  | _ => fail

def nextIsTrailer : Parser Bool := do
  match ← peek with
  | .op text => return text == "." || text == "(" || text == "["
  | _ => return false

def trailer (g : ExprGrammar) (value : Expr) : Parser Expr := do
  if ← op? "." then return .attribute value (← identifier)
  if ← op? "(" then return .call value (← g.callArguments)
  op "["
  return .subscript value (← g.subscriptIndex)

def primaryLevel (g : ExprGrammar) : Parser Expr := chain g.atom nextIsTrailer g.trailer

def awaited (g : ExprGrammar) : Parser Expr := do
  if ← keyword? "await" then return .compound [← g.primaryLevel] else g.primaryLevel

def power (g : ExprGrammar) : Parser Expr := do
  let base ← g.awaited
  if ← op? "**" then return .compound [base, ← g.factor] else return base

def nextIsOneOf (ops : List String) : Parser Bool := do
  match ← peek with
  | .op text => return ops.contains text
  | _ => return false

def factorLevel (g : ExprGrammar) : Parser Expr := do
  if ← nextIsOneOf ["+", "-", "~"] then
    let _ ← next
    return .compound [← g.factor]
  else g.power

/-- Operands with operators of one rank between them, grouped from the left. -/
def leftChain (ops : List String) (operand : Parser Expr) : Parser Expr :=
  chain operand (nextIsOneOf ops) fun left => do
    let _ ← next
    return .compound [left, ← operand]

def term (g : ExprGrammar) : Parser Expr := leftChain ["*", "/", "//", "%", "@"] g.factorLevel
def sum (g : ExprGrammar) : Parser Expr := leftChain ["+", "-"] g.term
def shift (g : ExprGrammar) : Parser Expr := leftChain ["<<", ">>"] g.sum
def bitwiseAnd (g : ExprGrammar) : Parser Expr := leftChain ["&"] g.shift
def bitwiseXor (g : ExprGrammar) : Parser Expr := leftChain ["^"] g.bitwiseAnd
def bitwiseOrLevel (g : ExprGrammar) : Parser Expr := leftChain ["|"] g.bitwiseXor

def nextIsComparison : Parser Bool := do
  match ← peek, ← peekSecond with
  | .op text, _ => return ["==", "!=", "<", "<=", ">", ">="].contains text
  | .keyword "in", _ => return true
  | .keyword "is", _ => return true
  | .keyword "not", .keyword "in" => return true
  | _, _ => return false

def comparisonSign : Parser PUnit := do
  if ← keyword? "not" then keyword "in"
  else if ← keyword? "is" then
    let _ ← keyword? "not"
  else
    let _ ← next

/-- A chain of comparisons is one expression. -/
def comparison (g : ExprGrammar) : Parser Expr := do
  let first ← g.bitwiseOrLevel
  let rest ← many nextIsComparison do
    comparisonSign
    g.bitwiseOrLevel
  return if rest.isEmpty then first else .compound (first :: rest)

def inversionLevel (g : ExprGrammar) : Parser Expr := do
  if ← keyword? "not" then return .compound [← g.inversion] else g.comparison

def wordChain (word : String) (operand : Parser Expr) : Parser Expr := do
  let first ← operand
  let rest ← many (keyword? word) operand
  return if rest.isEmpty then first else .compound (first :: rest)

def conjunction (g : ExprGrammar) : Parser Expr := wordChain "and" g.inversionLevel
def disjunctionLevel (g : ExprGrammar) : Parser Expr := wordChain "or" g.conjunction

def expressionLevel (g : ExprGrammar) : Parser Expr := do
  if ← nextIsKeyword "lambda" then g.lambda
  else
    let value ← g.disjunctionLevel
    if ← keyword? "if" then
      let test ← g.disjunctionLevel
      keyword "else"
      return .compound [test, value, ← g.expression]
    else return value

def above (g : ExprGrammar) : ExprGrammar :=
  ⟨g.named?, g.expressionLevel, g.disjunctionLevel, g.inversionLevel, g.bitwiseOrLevel,
    g.factorLevel, g.primaryLevel⟩

/-- The grammar of expressions nested at most so deep. -/
def ofDepth (named? : String → Option Nat) : Nat → ExprGrammar
  | 0 => ⟨named?, fail, fail, fail, fail, fail, fail⟩
  | depth + 1 => (ofDepth named? depth).above

end ExprGrammar

end EnumLookup.Source
