import EnumLookup.Declaration.Bindings
import EnumLookup.Declaration.Key
import EnumLookup.Declaration.Kind
import EnumLookup.Declaration.Members

/-!
Class declarations: the class statements of a module that are at its top level, in a
branch of it, or in the body of such a class. Functions, loops and other statements are
not searched. Blocks of any depth are searched here, while a limited depth of calls fails for those
nested too deeply; `maxBranchDepth` says from where on a search is not tried.
-/
namespace EnumLookup.Declaration

open Source Text

structure ClassDeclaration where
  key : Key
  module : String
  /-- The names of the enclosing classes and of the class itself, joined by dots. -/
  qualname : String
  kind : Kind
  header : ClassHeader
  body : List Stmt
  deriving Repr

def enumBaseNames : List String := ["Enum", "IntEnum", "StrEnum", "Flag", "IntFlag", "ReprEnum"]

def looksLikeEnum (name : String) : Bool :=
  enumBaseNames.contains name || "Enum".toList.isSuffixOf name.toList ||
    "Flag".toList.isSuffixOf name.toList

def guessKind (bases : List Expr) : Kind :=
  if bases.any fun base => base.terminalName?.any looksLikeEnum then .enum else .plain

structure Scope where
  path : String
  module : String
  outer : String

def Scope.declaration (scope : Scope) (header : ClassHeader) (body : List Stmt) :
    ClassDeclaration :=
  let qualname := Dotted.qualify scope.outer header.name
  ⟨⟨scope.path, header.position.line, header.position.column, qualname⟩, scope.module, qualname,
    guessKind header.bases, header, body⟩

def Scope.enter (scope : Scope) (header : ClassHeader) : Scope :=
  { scope with outer := Dotted.qualify scope.outer header.name }

mutual
/-- The declarations in a block, in the order of the source. -/
def collect (scope : Scope) : List Stmt → List ClassDeclaration
  | [] => []
  | stmt :: rest => collectStatement scope stmt ++ collect scope rest

def collectStatement (scope : Scope) : Stmt → List ClassDeclaration
  | .classDef header body =>
    scope.declaration header body :: collect (scope.enter header) body
  | .ifElse _ body orelse => collect scope body ++ collect scope orelse
  | .tryExcept _ body handlers orelse final =>
    collect scope body ++
      (collectAll scope handlers ++ (collect scope orelse ++ collect scope final))
  | _ => []

def collectAll (scope : Scope) : List (List Stmt) → List ClassDeclaration
  | [] => []
  | block :: rest => collect scope block ++ collectAll scope rest
end

def declarations (path module : String) (body : List Stmt) : List ClassDeclaration :=
  collect ⟨path, module, ""⟩ body

mutual
/-- How deep branches are nested in a block. -/
def branchDepth : List Stmt → Nat
  | [] => 0
  | stmt :: rest => max (statementBranchDepth stmt) (branchDepth rest)

def statementBranchDepth : Stmt → Nat
  | .classDef _ body => branchDepth body
  | .ifElse _ body orelse => max (branchDepth body) (branchDepth orelse) + 1
  | .tryExcept _ body handlers orelse final =>
    max (max (branchDepth body) (branchesDepth handlers))
      (max (branchDepth orelse) (branchDepth final)) + 1
  | _ => 0

def branchesDepth : List (List Stmt) → Nat
  | [] => 0
  | block :: rest => max (branchDepth block) (branchesDepth rest)
end

/-- Branches nested deeper than this are not indexed. The number stands for a limit on the depth of
calls: where exactly it is met depends on how deep the call is that searches them, and chains of
`elif` meet it somewhat later. -/
def maxBranchDepth : Nat := 950

end EnumLookup.Declaration
