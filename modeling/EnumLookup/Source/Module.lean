import EnumLookup.Source.Grammar.Statement
import EnumLookup.Text.Characters

/-!
Reading a source. A text is refused when it is not well formed, and when its tree would
be deeper than trees may be.
-/
namespace EnumLookup.Source

variable [Text.Characters]

inductive ParseFailure where
  | illFormed
  | tooDeep
  deriving DecidableEq, Repr

/-- How deep expressions may be nested, and trees may be. -/
def maxDepth : Nat := 2990

/-- How deep blocks may be nested: once more than lines may be indented. -/
def maxBlockDepth : Nat := Lexer.maxIndents + 1

def expressionGrammar : ExprGrammar := .ofDepth Text.Characters.named? maxDepth

def statementGrammar : StmtGrammar :=
  .ofDepth expressionGrammar (Pattern.ofDepth expressionGrammar maxDepth) (maxBlockDepth + 1)

def parseWith {α : Type} (parser : Parser α) (text : List Char) : Option α := do
  if text.contains '\x00' then none
  let tokens ← tokenize text
  let (result, _) ← parser tokens
  return result

def limitDepth {α : Type} (depth : α → Nat) : Option α → Except ParseFailure α
  | none => .error .illFormed
  | some tree => if depth tree ≤ maxDepth then .ok tree else .error .tooDeep

def wholeModule : Parser (List Stmt) := do
  let body ← statementGrammar.statements
  Parser.expect .endOfInput
  return body

/-- Expressions with commas between them, and line ends. -/
def wholeExpression : Parser Expr := do
  let value ← tupleOf expressionGrammar.expression
  let _ ← Parser.many (Parser.take? .newline) (pure ())
  Parser.expect .endOfInput
  return value

def parseModule (text : List Char) : Except ParseFailure (List Stmt) :=
  limitDepth blockDepth (parseWith wholeModule (closeLastLine (unifyLineEnds text)))

def parseExpression (text : List Char) : Except ParseFailure Expr :=
  limitDepth Expr.depth (parseWith wholeExpression (unifyLineEnds text))

end EnumLookup.Source
