import EnumLookup.Text.CodeRanges
import EnumLookup.Text.SourceText

/-!
The text that a string literal stands for. A backslash starts an escape, unless the
literal is raw; an unknown escape stands for itself, a truncated one is an error, and so is
an unknown name of a character.
-/
namespace EnumLookup.Source.Literal

open Text

def letterEscape? : Char → Option Nat
  | '\\' => some 0x5C
  | '\x27' => some 0x27
  | '\x22' => some 0x22
  | 'a' => some 0x07
  | 'b' => some 0x08
  | 'f' => some 0x0C
  | 'n' => some 0x0A
  | 'r' => some 0x0D
  | 't' => some 0x09
  | 'v' => some 0x0B
  | _ => none

def octal? (c : Char) : Option Nat :=
  if '0' ≤ c ∧ c ≤ '7' then some (c.toNat - '0'.toNat) else none

def octalEscape : Nat → Nat → List Char → Nat × List Char
  | count + 1, value, c :: rest =>
    match octal? c with
    | some digit => octalEscape count (8 * value + digit) rest
    | none => (value, c :: rest)
  | _, value, rest => (value, rest)

def hexEscape? : Nat → Nat → List Char → Option (Nat × List Char)
  | 0, value, rest => some (value, rest)
  | count + 1, value, c :: rest =>
    (hexDigit? c).bind fun digit => hexEscape? count (16 * value + digit) rest
  | _ + 1, _, [] => none

/-- A character by its name, which stands in braces. -/
def namedEscape? (named? : String → Option Nat) : List Char → Option (Nat × List Char)
  | '\x7b' :: rest =>
    let name := rest.takeWhile (· ≠ '\x7d')
    match rest.dropWhile (· ≠ '\x7d') with
    | _ :: after =>
      if name.isEmpty then none else (named? (String.ofList name)).map fun code => (code, after)
    | [] => none
  | _ => none

/-- What an escape stands for, given the text after the backslash: at most one code point, and
the text after the escape. Byte literals know fewer escapes. -/
def escape? (named? : String → Option Nat) (isBytes : Bool) :
    List Char → Option (List Nat × List Char)
  | [] => some ([0x5C], [])
  | '\n' :: rest => some ([], rest)
  | 'x' :: rest => (hexEscape? 2 0 rest).map fun (code, rest) => ([code], rest)
  | 'u' :: rest =>
    if isBytes then some ([0x5C, 0x75], rest)
    else (hexEscape? 4 0 rest).map fun (code, rest) => ([code], rest)
  | 'U' :: rest =>
    if isBytes then some ([0x5C, 0x55], rest)
    else (hexEscape? 8 0 rest).map fun (code, rest) => ([code], rest)
  | 'N' :: rest =>
    if isBytes then some ([0x5C, 0x4E], rest)
    else (namedEscape? named? rest).map fun (code, rest) => ([code], rest)
  | c :: rest =>
    match letterEscape? c, octal? c with
    | some code, _ => some ([code], rest)
    | none, some digit =>
      let (code, rest) := octalEscape 2 digit rest
      some ([code], rest)
    | none, none => some ([0x5C, c.toNat], rest)

def unescapeFrom (named? : String → Option Nat) (isBytes : Bool) :
    Nat → List Char → Option (List CodePoint)
  | _, [] => some []
  | 0, _ => none
  | fuel + 1, '\\' :: rest => do
    let (codes, rest) ← escape? named? isBytes rest
    let points ← codes.mapM CodePoint.ofCode?
    return points ++ (← unescapeFrom named? isBytes fuel rest)
  | fuel + 1, c :: rest => (unescapeFrom named? isBytes fuel rest).map (.scalar c :: ·)

def unescape (named? : String → Option Nat) (isBytes : Bool) (body : List Char) :
    Option (List CodePoint) :=
  unescapeFrom named? isBytes body.length body

/-- The code points of a literal that is no format literal. Byte literals are in ASCII. -/
def value? (named? : String → Option Nat) (isBytes isRaw : Bool) (body : List Char) :
    Option (List CodePoint) :=
  if isBytes && !body.all (·.toNat < 128) then none
  else if isRaw then some (body.map .scalar)
  else unescape named? isBytes body

end EnumLookup.Source.Literal
