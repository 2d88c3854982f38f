import EnumLookup.Text.CodeRanges

/-!
Number literals. Digits may be separated by single underscores; a literal ends where no
identifier could go on, except that some keywords may follow it at once.
-/
namespace EnumLookup.Source.Number

/-- Characters that can go on an identifier, or might: whatever is not ASCII. -/
def mayContinueName (c : Char) : Bool := c.isAlphanum || c == '_' || 128 ≤ c.toNat

def isDigit (c : Char) : Bool := '0' ≤ c && c ≤ '9'
def isHex (c : Char) : Bool := (Text.hexDigit? c).isSome
def isOctal (c : Char) : Bool := '0' ≤ c && c ≤ '7'
def isBinary (c : Char) : Bool := c == '0' || c == '1'

/-- What follows the digits; nothing when an underscore has no digit after it. -/
def afterDigits (digit : Char → Bool) : List Char → Option (List Char)
  | [] => some []
  | '_' :: c :: rest => if digit c then afterDigits digit rest else none
  | c :: rest =>
    if digit c then afterDigits digit rest else if c = '_' then none else some (c :: rest)

def startsWithWord (word : List Char) (text : List Char) : Bool :=
  word.isPrefixOf text && !((text.drop word.length).take 1).any mayContinueName

def startsKeyword (text : List Char) : Bool :=
  startsWithWord ['a', 'n', 'd'] text || startsWithWord ['e', 'l', 's', 'e'] text ||
  startsWithWord ['f', 'o', 'r'] text || startsWithWord ['o', 'r'] text ||
  startsWithWord ['n', 'o', 't'] text ||
  match text with
  | 'i' :: c :: _ => c == 'f' || c == 'n' || c == 's'
  | _ => false

def finish (rest : List Char) : Option (List Char) :=
  if startsKeyword rest || !(rest.take 1).any mayContinueName then some rest else none

def afterUnit : List Char → Option (List Char)
  | c :: rest => if c == 'j' || c == 'J' then finish rest else finish (c :: rest)
  | [] => some []

/-- An exponent, if one with digits is there, then the unit. An `e` without digits belongs to
what follows. -/
def afterExponent : List Char → Option (List Char)
  | [] => some []
  | e :: rest =>
    if e == 'e' || e == 'E' then
      match rest with
      | sign :: digit :: more =>
        if sign == '+' || sign == '-' then
          if isDigit digit then (afterDigits isDigit (digit :: more)).bind afterUnit else none
        else if isDigit sign then (afterDigits isDigit rest).bind afterUnit
        else finish (e :: rest)
      | [digit] => if isDigit digit then some [] else
          if digit == '+' || digit == '-' then none else finish (e :: rest)
      | [] => finish [e]
    else afterUnit (e :: rest)

def afterPoint : List Char → Option (List Char)
  | [] => some []
  | c :: rest =>
    if isDigit c then (afterDigits isDigit (c :: rest)).bind afterExponent
    else afterExponent (c :: rest)

/-- A literal in another base: at least one digit after the letter. -/
def afterBase (digit : Char → Bool) (text : List Char) : Option (List Char) :=
  match text with
  | '_' :: c :: _ => if digit c then finishDigits text else none
  | c :: _ => if digit c then finishDigits text else none
  | [] => none
where
  finishDigits (text : List Char) : Option (List Char) :=
    match afterDigits digit text with
    | some rest => if (rest.take 1).any isDigit then none else finish rest
    | none => none

/-- The largest number of digits that a whole number may have, unless it is zero. -/
def maxDigits : Nat := 4300

/-- Whether the digits may stand for a whole number: not too many, and none but zeros after a
leading zero. -/
def isWhole (digits : List Char) : Bool :=
  match digits.filter (· ≠ '_') with
  | '0' :: rest => rest.all (· == '0')
  | digits => digits.length ≤ maxDigits

def afterDecimal (text : List Char) : Option (List Char) :=
  match afterDigits isDigit text with
  | none => none
  | some rest =>
    let whole := isWhole (text.take (text.length - rest.length))
    match rest with
    | '.' :: more => afterPoint more
    | c :: _ =>
      if c == 'j' || c == 'J' then afterUnit rest
      else if c == 'e' || c == 'E' then
        match afterExponent rest with
        | some after => if after.length < rest.length || whole then some after else none
        | none => none
      else if whole then finish rest else none
    | [] => if whole then some [] else none

def after (text : List Char) : Option (List Char) :=
  match text with
  | '0' :: c :: rest =>
    if c == 'x' || c == 'X' then afterBase isHex rest
    else if c == 'o' || c == 'O' then afterBase isOctal rest
    else if c == 'b' || c == 'B' then afterBase isBinary rest
    else afterDecimal text
  | '.' :: rest => afterPoint rest
  | _ => afterDecimal text

end EnumLookup.Source.Number
