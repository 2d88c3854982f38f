import EnumLookup.Source.Tree

/-!
Names in expressions: what an expression refers to, and what an assignment binds.
-/
namespace EnumLookup.Source

namespace Expr

def dottedName? : Expr → Option String
  | .name id => some id
  | .attribute value attr => value.dottedName?.map (· ++ "." ++ attr)
  | _ => none

/-- What is called, for a call; otherwise the expression itself. -/
def callTarget : Expr → Expr
  | .call function _ => function
  | expr => expr

def lastName? : Expr → Option String
  | .name id => some id
  | .attribute _ attr => some attr
  | _ => none

def terminalName? (expr : Expr) : Option String := expr.callTarget.lastName?

mutual
def targetNames : Expr → List String
  | .name id => [id]
  | .tuple elements => targetsNames elements
  | .list elements => targetsNames elements
  | _ => []

def targetsNames : List Expr → List String
  | [] => []
  | expr :: rest => expr.targetNames ++ targetsNames rest
end

end Expr

end EnumLookup.Source
