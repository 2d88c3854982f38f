/-!
Whether a class declaration looks like an enum.
-/
namespace EnumLookup

inductive Kind where
  | enum
  | plain
  deriving DecidableEq, Repr

def Kind.label : Kind → String
  | .enum => "enum"
  | .plain => "class"

end EnumLookup
