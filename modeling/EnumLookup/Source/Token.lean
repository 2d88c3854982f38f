import EnumLookup.Source.Tree

/-!
Tokens of a source, each with the position of its first character.
-/
namespace EnumLookup.Source

structure StringKind where
  isBytes : Bool
  isRaw : Bool
  isFormat : Bool
  deriving DecidableEq, Repr

inductive TokenKind where
  /-- An identifier, as written and in its composed form. -/
  | name (spelling id : String)
  | keyword (word : String)
  /-- A number literal, and whether it has the imaginary unit. -/
  | number (isImaginary : Bool)
  /-- A string literal; the body is what stands between its quotes. -/
  | string (kind : StringKind) (body : List Char)
  | op (text : String)
  | newline
  | indent
  | dedent
  | endOfInput
  deriving DecidableEq, Repr

structure Token where
  kind : TokenKind
  position : Position
  deriving DecidableEq, Repr

end EnumLookup.Source
