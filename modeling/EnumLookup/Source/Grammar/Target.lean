import EnumLookup.Source.Tree

/-!
Which expressions may stand where a value is assigned. They are parsed as expressions
first; parentheses leave no trace in the tree and change nothing here.
-/
namespace EnumLookup.Source

def Expr.isPlace : Expr → Bool
  | .name _ => true
  | .attribute _ _ => true
  | .subscript _ _ => true
  | _ => false

mutual
/-- A place, or a tuple or list of targets, in which starred targets may be. -/
def Expr.isTarget : Expr → Bool
  | .name _ => true
  | .attribute _ _ => true
  | .subscript _ _ => true
  | .tuple elements => areTargets elements
  | .list elements => areTargets elements
  | _ => false

def areTargets : List Expr → Bool
  | [] => true
  | .starred value :: rest => value.isTarget && areTargets rest
  | expr :: rest => expr.isTarget && areTargets rest
end

def Expr.isStarTarget : Expr → Bool
  | .starred value => value.isTarget
  | expr => expr.isTarget

mutual
def Expr.isDeletable : Expr → Bool
  | .name _ => true
  | .attribute _ _ => true
  | .subscript _ _ => true
  | .tuple elements => areDeletable elements
  | .list elements => areDeletable elements
  | _ => false

def areDeletable : List Expr → Bool
  | [] => true
  | expr :: rest => expr.isDeletable && areDeletable rest
end

end EnumLookup.Source
