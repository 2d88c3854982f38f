import EnumLookup.Text.SourceText

/-!
Syntax trees of source files, as far as enums are found by them. Statements keep their
blocks and what they bind. Expressions that no rule looks into are kept only for their
operands, so that a tree has the depth of its source.
-/
namespace EnumLookup.Source

open Text

/-- A place in a source: the line from one, the column in UTF-8 bytes from zero. -/
structure Position where
  line : Nat
  column : Nat
  deriving DecidableEq, Repr

inductive Expr where
  | name (id : String)
  | attribute (value : Expr) (attr : String)
  | call (function : Expr) (arguments : List Expr)
  | subscript (value index : Expr)
  | starred (value : Expr)
  | tuple (elements : List Expr)
  | list (elements : List Expr)
  | lambda (parts : List Expr)
  /-- A string constant. -/
  | text (value : SourceText)
  /-- Every other constant. -/
  | constant
  /-- An expression of any other form, with its operands. -/
  | compound (operands : List Expr)
  deriving Repr

/-- A name in an import statement, and the name it is bound to if that is another one. -/
structure ImportedName where
  name : String
  asName : Option String
  deriving DecidableEq, Repr

/-- A class statement without its body. The position is that of the word `class`. -/
structure ClassHeader where
  name : String
  position : Position
  decorators : List Expr
  bases : List Expr
  /-- The values of keyword arguments. -/
  keywords : List Expr
  deriving Repr

/-- Statements. `parts` are expressions of the statement that bind nothing. -/
inductive Stmt where
  | classDef (header : ClassHeader) (body : List Stmt)
  | functionDef (name : String) (parts : List Expr) (body : List Stmt)
  | assign (targets : List Expr) (value : Expr)
  | annotated (target type : Expr) (value : Option Expr)
  | importModules (names : List ImportedName)
  | importFrom (level : Nat) (module : Option String) (names : List ImportedName)
  | ifElse (test : Expr) (body orelse : List Stmt)
  | tryExcept (parts : List Expr) (body : List Stmt) (handlers : List (List Stmt))
      (orelse final : List Stmt)
  | loop (parts : List Expr) (body orelse : List Stmt)
  | withBlock (parts : List Expr) (body : List Stmt)
  | matchCases (parts : List Expr) (cases : List (List Stmt))
  | simple (parts : List Expr)
  deriving Repr

mutual
def Expr.depth : Expr → Nat
  | .name _ => 1
  | .attribute value _ => value.depth + 1
  | .call function arguments => max function.depth (exprsDepth arguments) + 1
  | .subscript value index => max value.depth index.depth + 1
  | .starred value => value.depth + 1
  | .tuple elements => exprsDepth elements + 1
  | .list elements => exprsDepth elements + 1
  | .lambda parts => exprsDepth parts + 1
  | .text _ => 1
  | .constant => 1
  | .compound operands => exprsDepth operands + 1

def exprsDepth : List Expr → Nat
  | [] => 0
  | expr :: rest => max expr.depth (exprsDepth rest)
end

def ClassHeader.depth (header : ClassHeader) : Nat :=
  max (exprsDepth header.decorators) (max (exprsDepth header.bases) (exprsDepth header.keywords))

mutual
def Stmt.depth : Stmt → Nat
  | .classDef header body => max header.depth (blockDepth body) + 1
  | .functionDef _ parts body => max (exprsDepth parts) (blockDepth body) + 1
  | .assign targets value => max (exprsDepth targets) value.depth + 1
  | .annotated target type value =>
    max target.depth (max type.depth ((value.map Expr.depth).getD 0)) + 1
  | .importModules _ => 1
  | .importFrom _ _ _ => 1
  | .ifElse test body orelse => max test.depth (max (blockDepth body) (blockDepth orelse)) + 1
  | .tryExcept parts body handlers orelse final =>
    max (exprsDepth parts) (max (max (blockDepth body) (blocksDepth handlers))
      (max (blockDepth orelse) (blockDepth final))) + 1
  | .loop parts body orelse =>
    max (exprsDepth parts) (max (blockDepth body) (blockDepth orelse)) + 1
  | .withBlock parts body => max (exprsDepth parts) (blockDepth body) + 1
  | .matchCases parts cases => max (exprsDepth parts) (blocksDepth cases) + 1
  | .simple parts => exprsDepth parts + 1

def blockDepth : List Stmt → Nat
  | [] => 0
  | stmt :: rest => max stmt.depth (blockDepth rest)

def blocksDepth : List (List Stmt) → Nat
  | [] => 0
  | block :: rest => max (blockDepth block) (blocksDepth rest)
end

end EnumLookup.Source
