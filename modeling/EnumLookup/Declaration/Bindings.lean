import EnumLookup.Declaration.Names
import EnumLookup.SourceFile
import EnumLookup.Text.Order

/-!
What the names of a module refer to. Imports and definitions bind names to qualified
names; blocks of `if` and `try` belong to the block they stand in, and of several
bindings of a name the last one counts. Blocks may be nested to any depth here, which a limited
depth of calls would not allow.
-/
namespace EnumLookup.Declaration

open Source Text

/-- Names with their qualified names, the latest binding first. -/
abbrev Bindings := List (String × String)

namespace Bindings

def sorted (bindings : Bindings) : List (String × String) :=
  (sortedDistinct (bindings.map (·.1))).filterMap fun name =>
    (bindings.lookup name).map (name, ·)

end Bindings

structure ModuleContext where
  module : String
  isPackage : Bool
  deriving DecidableEq, Repr

/-- The components of the package that relative imports start from. -/
def ModuleContext.packageParts (context : ModuleContext) : List String :=
  let parts := Dotted.components context.module
  if context.isPackage then parts else parts.dropLast

/-- The module named by an import: itself without dots, otherwise what is left of the package
after one step up for each dot but the first, with the module below it. Nothing when the
steps lead out of the top package. -/
def importedModule? (context : ModuleContext) (level : Nat) (module : Option String) :
    Option String :=
  if level = 0 then module
  else
    let package := context.packageParts
    let climb := level - 1
    if package.length < climb then none
    else
      let base := package.take (package.length - climb)
      let below := match module with
        | some name => if name = "" then [] else Dotted.components name
        | none => []
      let name := Dotted.join (base ++ below)
      if name = "" then none else some name

/-- The binding of a name in an import of modules. Without another name, the first component is
bound. -/
def moduleBinding (imported : ImportedName) : String × String :=
  match imported.asName with
  | some name => (name, imported.name)
  | none =>
    let head := (Dotted.cut imported.name).1
    (head, head)

/-- The bindings of an import from a module. A star binds nothing. -/
def memberBindings (base : String) (names : List ImportedName) : List (String × String) :=
  (names.filter (·.name ≠ "*")).map fun imported =>
    (imported.asName.getD imported.name, base ++ "." ++ imported.name)

def ownBinding (context : ModuleContext) (name : String) : String × String :=
  (name, context.module ++ "." ++ name)

def statementBindings (context : ModuleContext) : Stmt → List (String × String)
  | .importModules names => names.map moduleBinding
  | .importFrom level module names =>
    match importedModule? context level module with
    | some base => memberBindings base names
    | none => []
  | .classDef header _ => [ownBinding context header.name]
  | .functionDef name _ _ => [ownBinding context name]
  | .assign targets _ => (targets.flatMap Expr.targetNames).map (ownBinding context)
  | .annotated (.name id) _ _ => [ownBinding context id]
  | _ => []

mutual
/-- The statements of a block and of the branches in it, in the order of the source. -/
def flatten : List Stmt → List Stmt
  | [] => []
  | stmt :: rest => stmt :: (branchStatements stmt ++ flatten rest)

def branchStatements : Stmt → List Stmt
  | .ifElse _ body orelse => flatten body ++ flatten orelse
  | .tryExcept _ body handlers orelse final =>
    flatten body ++ (flattenAll handlers ++ (flatten orelse ++ flatten final))
  | _ => []

def flattenAll : List (List Stmt) → List Stmt
  | [] => []
  | block :: rest => flatten block ++ flattenAll rest
end

def moduleBindings (context : ModuleContext) (body : List Stmt) : Bindings :=
  ((flatten body).flatMap (statementBindings context)).reverse

end EnumLookup.Declaration
