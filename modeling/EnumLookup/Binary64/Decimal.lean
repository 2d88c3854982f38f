import EnumLookup.Binary64.Basic
import EnumLookup.Text.Blank
import EnumLookup.Text.Quoted

/-!
Binary64 numbers as decimal text: written with six significant digits, read from
digits of any script with single underscores between them.
-/
namespace EnumLookup.Binary64

open Text

/-- How a number is written: how many significant digits, and from which decimal
exponent down the positional notation gives way to the scientific one. -/
structure GeneralFormat where
  significant : Nat
  least : Int

/-- Six digits; numbers below a ten-thousandth, and those with more than six digits before
the point, are written with an exponent. -/
def sixDigits : GeneralFormat := ⟨6, -4⟩

def powerOfTen (exponent : Int) : Nat × Nat :=
  (Nat.pow 10 exponent.toNat, Nat.pow 10 (-exponent).toNat)

def decimalExponent (num den : Nat) : Int :=
  let guess : Int := digitCount num - digitCount den
  let power := powerOfTen guess
  if power.1 * den ≤ num * power.2 then guess else guess - 1

/-- The first `count` significant digits of a positive fraction, rounded, with the exponent of
the first of them. -/
def significantDigits (count num den : Nat) : Nat × Int :=
  let exponent := decimalExponent num den
  let power := powerOfTen (exponent - (count - 1))
  let digits := roundDiv (num * power.2) (den * power.1)
  if digits < Nat.pow 10 count then (digits, exponent) else (digits / 10, exponent + 1)

def dropZeros (digits : List Char) : List Char := (digits.reverse.dropWhile (· == '0')).reverse

def fraction (digits : List Char) : List Char :=
  match dropZeros digits with
  | [] => []
  | kept => '.' :: kept

/-- An exponent has a sign and at least two digits. -/
def exponentChars (exponent : Int) : List Char :=
  let digits := Nat.toDigits 10 exponent.natAbs
  'e' :: (if exponent < 0 then '-' else '+') :: (List.replicate (2 - digits.length) '0' ++ digits)

def magnitudeChars (format : GeneralFormat) (num den : Nat) : List Char :=
  if num = 0 then ['0']
  else
    let (value, exponent) := significantDigits format.significant num den
    let digits := Nat.toDigits 10 value
    if exponent < format.least ∨ (format.significant : Int) ≤ exponent then
      digits.take 1 ++ fraction (digits.drop 1) ++ exponentChars exponent
    else if 0 ≤ exponent then
      digits.take (exponent.toNat + 1) ++ fraction (digits.drop (exponent.toNat + 1))
    else
      '0' :: fraction (List.replicate ((-exponent).toNat - 1) '0' ++ digits)

def signChars (negative : Bool) : List Char := if negative then ['-'] else []

/-- The number in its general form: `0.5`, `1`, `1e+06`, `nan`, `-inf`. -/
def general : Binary64 → String
  | nan => "nan"
  | infinite negative => String.ofList (signChars negative ++ ['i', 'n', 'f'])
  | finite negative units =>
    String.ofList (signChars negative ++ magnitudeChars sixDigits units one)

def isDigit (c : Char) : Bool := '0' ≤ c && c ≤ '9'

/-- Blanks and digits beyond ASCII become their ASCII counterparts; other such characters have
none. -/
def plainChars? (text : List Char) : Option (List Char) :=
  text.mapM fun c =>
    if c.toNat < 127 then some c
    else if isBlank c then some ' '
    else (digitValue? c).map fun value => Char.ofNat ('0'.toNat + value)

def isPadding (c : Char) : Bool := c == ' ' || ('\t' ≤ c && c ≤ '\r')

def strip (text : List Char) : List Char :=
  ((text.dropWhile isPadding).reverse.dropWhile isPadding).reverse

/-- Drops the underscores, each of which stands between two digits. -/
def joinDigits? (before : Char) : List Char → Option (List Char)
  | [] => some []
  | '_' :: c :: rest =>
    if isDigit before && isDigit c then (joinDigits? c rest).map (c :: ·) else none
  | c :: rest => if c = '_' then none else (joinDigits? c rest).map (c :: ·)

def splitSign : List Char → Bool × List Char
  | '-' :: rest => (true, rest)
  | '+' :: rest => (false, rest)
  | rest => (false, rest)

def digitsValue (digits : List Char) : Nat :=
  digits.foldl (fun value c => 10 * value + (c.toNat - '0'.toNat)) 0

/-- The exponent part after the digits: nothing, or a letter, a sign and at least one digit. -/
def readExponent? : List Char → Option Int
  | [] => some 0
  | c :: rest =>
    let (negative, digits) := splitSign rest
    if (c == 'e' || c == 'E') && !digits.isEmpty && digits.all isDigit then
      some (if negative then -(digitsValue digits : Int) else digitsValue digits)
    else none

/-- Digits with at most one point among them, then the exponent part. -/
def readMagnitude? (negative : Bool) (text : List Char) : Option Binary64 :=
  let whole := text.takeWhile isDigit
  let afterWhole := text.dropWhile isDigit
  let (places, rest) := match afterWhole with
    | '.' :: more => (more.takeWhile isDigit, more.dropWhile isDigit)
    | more => ([], more)
  if whole.isEmpty && places.isEmpty then none
  else (readExponent? rest).map fun exponent =>
    ofDecimal negative (digitsValue (whole ++ places)) (exponent - places.length)

/-- The words for the numbers that have no digits, in lower case. -/
def namedNumber? (negative : Bool) (word : String) : Option Binary64 :=
  if word = "nan" then some nan
  else if word = "inf" ∨ word = "infinity" then some (infinite negative)
  else none

def ofText? (text : String) : Option Binary64 := do
  let plain ← plainChars? text.toList
  let chars ← joinDigits? ' ' (strip plain)
  let (negative, magnitude) := splitSign chars
  match namedNumber? negative (String.ofList (magnitude.map Char.toLower)) with
  | some number => some number
  | none => readMagnitude? negative magnitude

end EnumLookup.Binary64
