import EnumLookup.Source.Grammar.Pattern

/-!
Statements. A block belongs to the level below the statement that it is part of; since
indentation is limited, so are the levels that a source can need.
-/
namespace EnumLookup.Source

open EnumLookup.Source.Parser

/-- What statements are made from: expressions, patterns, and the blocks of the level below. -/
structure StmtGrammar where
  exprs : ExprGrammar
  pattern : Parser PUnit
  block : Parser (List Stmt)

namespace StmtGrammar

def assigned (g : StmtGrammar) : Parser Expr := do
  if ← nextIsKeyword "yield" then g.exprs.yieldExpr else g.exprs.starExpressions

def augmentedOps : List String :=
  ["+=", "-=", "*=", "@=", "/=", "%=", "&=", "|=", "^=", "<<=", ">>=", "**=", "//="]

/-- The rest of an assignment, its first target given and an equals sign before it. -/
def assignmentFrom (g : StmtGrammar) : List Token → List Expr → Parser Stmt
  | [], _ => fail
  | _ :: bound, targets => do
    op "="
    if ← nextIsKeyword "yield" then return .assign targets (← g.exprs.yieldExpr)
    let value ← g.exprs.starExpressions
    if ← nextIsOp "=" then
      require value.isStarTarget
      assignmentFrom g bound (targets ++ [value])
    else return .assign targets value

def expressionStatement (g : StmtGrammar) : Parser Stmt := do
  let first ← g.exprs.starExpressions
  if ← nextIsOp ":" then
    require first.isPlace
    op ":"
    let type ← g.exprs.expression
    return .annotated first type (← when? (op? "=") g.assigned)
  else if ← nextIsOp "=" then
    require first.isStarTarget
    bounded fun bound => g.assignmentFrom bound [first]
  else if ← ExprGrammar.nextIsOneOf augmentedOps then
    require first.isPlace
    let _ ← next
    return .simple [first, ← g.assigned]
  else return .simple [first]

def dottedName : Parser String := do
  return String.intercalate "." (← separated "." identifier)

def asName? : Parser (Option String) := when? (keyword? "as") identifier

def importStatement : Parser Stmt := do
  keyword "import"
  return .importModules (← separated "," do return ⟨← dottedName, ← asName?⟩)

def importLevel : Parser Nat := do
  let dots ← many (return (← nextIsOp ".") || (← nextIsOp "...")) do
    if ← op? "..." then return 3
    op "."
    return 1
  return dots.foldl (· + ·) 0

def importedName : Parser ImportedName := do return ⟨← identifier, ← asName?⟩

def importedNames : Parser (List ImportedName) := do
  if ← op? "*" then return [⟨"*", none⟩]
  if ← op? "(" then
    let first ← importedName
    let rest ← if ← op? "," then listed (nextIsOp ")") importedName else pure []
    op ")"
    return first :: rest
  else separated "," importedName

def fromStatement : Parser Stmt := do
  keyword "from"
  let level ← importLevel
  let module ← when? (return level == 0 || !(← nextIsKeyword "import")) dottedName
  keyword "import"
  return .importFrom level module (← importedNames)

def atStatementEnd : Parser Bool := return (← nextIs .newline) || (← nextIsOp ";")

def delStatement (g : StmtGrammar) : Parser Stmt := do
  keyword "del"
  require (!(← atStatementEnd))
  let targets ← listed atStatementEnd g.exprs.primary
  require (areDeletable targets)
  return .simple targets

def raiseStatement (g : StmtGrammar) : Parser Stmt := do
  keyword "raise"
  if ← atStatementEnd then return .simple []
  let error ← g.exprs.expression
  let cause ← when? (keyword? "from") g.exprs.expression
  return .simple (error :: cause.toList)

def assertStatement (g : StmtGrammar) : Parser Stmt := do
  keyword "assert"
  let test ← g.exprs.expression
  let message ← when? (op? ",") g.exprs.expression
  return .simple (test :: message.toList)

def returnStatement (g : StmtGrammar) : Parser Stmt := do
  keyword "return"
  return .simple (← when? nextStartsExpression g.exprs.starExpressions).toList

def scopeStatement : Parser Stmt := do
  let _ ← next
  let _ ← separated "," identifier
  return .simple []

def wordStatement : Parser Stmt := do
  let _ ← next
  return .simple []

def simpleStatement (g : StmtGrammar) : Parser Stmt := do
  match ← peek with
  | .keyword "import" => importStatement
  | .keyword "from" => fromStatement
  | .keyword "del" => g.delStatement
  | .keyword "raise" => g.raiseStatement
  | .keyword "assert" => g.assertStatement
  | .keyword "return" => g.returnStatement
  | .keyword "global" => scopeStatement
  | .keyword "nonlocal" => scopeStatement
  | .keyword "pass" => wordStatement
  | .keyword "break" => wordStatement
  | .keyword "continue" => wordStatement
  | .keyword "yield" => return .simple [← g.exprs.yieldExpr]
  | _ => g.expressionStatement

def simpleStatementsFrom (g : StmtGrammar) : List Token → Parser (List Stmt)
  | [] => fail
  | _ :: bound => do
    let first ← g.simpleStatement
    if ← op? ";" then
      if ← take? .newline then return [first]
      return first :: (← simpleStatementsFrom g bound)
    expect .newline
    return [first]

def simpleStatements (g : StmtGrammar) : Parser (List Stmt) :=
  bounded g.simpleStatementsFrom

def suite (g : StmtGrammar) : Parser (List Stmt) := do
  op ":"
  g.block

def elseBlock (g : StmtGrammar) : Parser (List Stmt) := do
  if ← keyword? "else" then g.suite else return []

def typeNote (value : Parser Expr) : Parser (List Expr) := do
  return (← when? (op? ":") value).toList

def functionStyle (g : StmtGrammar) : ParameterStyle :=
  ⟨typeNote g.exprs.expression, typeNote (g.exprs.starred g.exprs.expression), ")"⟩

def functionStatement (g : StmtGrammar) (decorators : List Expr) : Parser Stmt := do
  keyword "def"
  let name ← identifier
  op "("
  let parameters ← g.exprs.parameters g.functionStyle
  op ")"
  let result ← when? (op? "->") g.exprs.expression
  return .functionDef name (decorators ++ parameters ++ result.toList) (← g.suite)

def classStatement (g : StmtGrammar) (decorators : List Expr) : Parser Stmt := do
  let word ← next
  require (word.kind = .keyword "class")
  let name ← identifier
  let found ← if ← op? "(" then g.exprs.arguments else pure ⟨[], []⟩
  let header : ClassHeader :=
    ⟨name, word.position, decorators, found.positional, found.keywords⟩
  return .classDef header (← g.suite)

def decorator (g : StmtGrammar) : Parser Expr := do
  op "@"
  let value ← g.exprs.named
  expect .newline
  return value

def decoratedStatement (g : StmtGrammar) : Parser Stmt := do
  let decorators ← many (nextIsOp "@") g.decorator
  if ← nextIsKeyword "class" then g.classStatement decorators
  else
    let _ ← keyword? "async"
    g.functionStatement decorators

def guarded (g : StmtGrammar) (word : String) : Parser (Expr × List Stmt) := do
  keyword word
  let test ← g.exprs.named
  return (test, ← g.suite)

/-- Later branches are nested in the last block of those before them. -/
def ifStatement (g : StmtGrammar) : Parser Stmt := do
  let (test, body) ← g.guarded "if"
  let branches ← many (nextIsKeyword "elif") (g.guarded "elif")
  let last ← g.elseBlock
  let rest := branches.foldr (fun (test, body) orelse => [.ifElse test body orelse]) last
  return .ifElse test body rest

def whileStatement (g : StmtGrammar) : Parser Stmt := do
  let (test, body) ← g.guarded "while"
  return .loop [test] body (← g.elseBlock)

def forStatement (g : StmtGrammar) : Parser Stmt := do
  keyword "for"
  let target ← g.exprs.starTargets
  keyword "in"
  let source ← g.exprs.starExpressions
  let body ← g.suite
  return .loop [target, source] body (← g.elseBlock)

def atItemEnd : Parser Bool := do
  match ← peek with
  | .op text => return text == "," || text == ")" || text == ":"
  | _ => return false

def withItem (g : StmtGrammar) : Parser (List Expr) := do
  let value ← g.exprs.expression
  if ← keyword? "as" then
    let target ← g.exprs.starTarget
    require (← atItemEnd)
    return [value, target]
  else return [value]

/-- The items of a with statement and the colon after them. Parentheses around all items are
tried before parentheses of the first one. -/
def withItems (g : StmtGrammar) : Parser (List Expr) :=
  orElse
    (do
      op "("
      let first ← g.withItem
      let rest ← if ← op? "," then listed (nextIsOp ")") g.withItem else pure []
      op ")"
      op ":"
      return first ++ rest.flatten)
    (do
      let items ← separated "," g.withItem
      op ":"
      return items.flatten)

def withStatement (g : StmtGrammar) : Parser Stmt := do
  keyword "with"
  let items ← g.withItems
  return .withBlock items (← g.block)

/-- A handler with the class it handles; one with a star handles groups and needs a class. -/
def handler (g : StmtGrammar) (isStar : Bool) : Parser (List Expr × List Stmt) := do
  keyword "except"
  if isStar then op "*"
  if !isStar && (← nextIsOp ":") then return ([], ← g.suite)
  let handled ← g.exprs.expression
  let _ ← StmtGrammar.asName?
  return ([handled], ← g.suite)

def tryStatement (g : StmtGrammar) : Parser Stmt := do
  keyword "try"
  let body ← g.suite
  let isStar := (← peekSecond) == .op "*"
  let handlers ← many (nextIsKeyword "except") (g.handler isStar)
  let orelse ← if handlers.isEmpty then pure [] else g.elseBlock
  let final ← when? (keyword? "finally") g.suite
  require (!handlers.isEmpty || final.isSome)
  return .tryExcept (handlers.flatMap (·.1)) body (handlers.map (·.2)) orelse (final.getD [])

def asyncStatement (g : StmtGrammar) : Parser Stmt := do
  keyword "async"
  match ← peek with
  | .keyword "def" => g.functionStatement []
  | .keyword "with" => g.withStatement
  | _ => g.forStatement

def subject (g : StmtGrammar) : Parser Expr := do
  let first ← g.exprs.starNamed
  match first, ← op? "," with
  | _, true =>
    let rest ← listed (nextIsOp ":") g.exprs.starNamed
    return .tuple (first :: rest)
  | .starred _, false => fail
  | _, false => return first

def caseBlock (g : StmtGrammar) : Parser (List Expr × List Stmt) := do
  let _ ← next
  Pattern.patterns g.pattern
  let test ← when? (keyword? "if") g.exprs.named
  return (test.toList, ← g.suite)

def matchStatement (g : StmtGrammar) : Parser Stmt := do
  let _ ← next
  let subject ← g.subject
  op ":"
  expect .newline
  expect .indent
  require (← nextIsWord "case")
  let cases ← many (nextIsWord "case") g.caseBlock
  expect .dedent
  return .matchCases (subject :: cases.flatMap (·.1)) (cases.map (·.2))

/-- A compound statement, or the statements of a line. The word `match` may be a name. -/
def statement (g : StmtGrammar) : Parser (List Stmt) := do
  match ← peek with
  | .keyword "if" => return [← g.ifStatement]
  | .keyword "while" => return [← g.whileStatement]
  | .keyword "for" => return [← g.forStatement]
  | .keyword "try" => return [← g.tryStatement]
  | .keyword "with" => return [← g.withStatement]
  | .keyword "def" => return [← g.functionStatement []]
  | .keyword "class" => return [← g.classStatement []]
  | .keyword "async" => return [← g.asyncStatement]
  | .op "@" => return [← g.decoratedStatement]
  | .name "match" _ => orElse (do return [← g.matchStatement]) g.simpleStatements
  | _ => g.simpleStatements

def atBlockEnd : Parser Bool := return (← nextIs .dedent) || (← nextIs .endOfInput)

def statements (g : StmtGrammar) : Parser (List Stmt) := do
  return (← many (return !(← atBlockEnd)) g.statement).flatten

def blockLevel (g : StmtGrammar) : Parser (List Stmt) := do
  if ← take? .newline then
    expect .indent
    let body ← g.statements
    expect .dedent
    return body
  else g.simpleStatements

def ofDepth (exprs : ExprGrammar) (pattern : Parser PUnit) : Nat → StmtGrammar
  | 0 => ⟨exprs, pattern, fail⟩
  | depth + 1 => ⟨exprs, pattern, (ofDepth exprs pattern depth).blockLevel⟩

end StmtGrammar

end EnumLookup.Source
