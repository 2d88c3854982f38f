import EnumLookup.Source.Literal

/-!
Format literals. Between doubled braces and text stand fields in single braces: an
expression, then optionally an equals sign, a conversion and a format, which may hold
fields of its own. `fields` finds the expressions; it fails on a malformed literal.
-/
namespace EnumLookup.Source.FormatString

def openBrace : Char := '\x7b'
def closeBrace : Char := '\x7d'

def isBrace (c : Char) : Bool := c == openBrace || c == closeBrace

/-- A piece of text without fields. `doubled` tells that it ends with a doubled brace, of which
it holds one, and that text goes on after it. -/
structure Piece where
  text : List Char
  doubled : Bool
  rest : List Char

def Piece.push (c : Char) (piece : Piece) : Piece := { piece with text := c :: piece.text }

/-- Reads up to the next field, or up to the end of the format when in one. Escapes hide no
braces, but a character's name stands in braces of its own. The next `skip` characters are
known to be text. -/
def piece (isRaw inFormat inName : Bool) (skip : Nat) : List Char → Option Piece
  | [] => some ⟨[], false, []⟩
  | c :: rest =>
    if 0 < skip then (piece isRaw inFormat inName (skip - 1) rest).map (·.push c)
    else if inName then (piece isRaw inFormat (c ≠ closeBrace) 0 rest).map (·.push c)
    else if c = '\\' ∧ !isRaw then
      if rest.take 2 = ['N', openBrace] then
        (piece isRaw inFormat true 1 rest).map (·.push c)
      else
        let hidden := if (rest.take 1).any isBrace then 0 else 1
        (piece isRaw inFormat false hidden rest).map (·.push c)
    else if isBrace c then
      if inFormat then some ⟨[], false, c :: rest⟩
      else if rest.head? = some c then some ⟨[c], true, rest.drop 1⟩
      else if c = openBrace then some ⟨[], false, c :: rest⟩
      else none
    else (piece isRaw inFormat false 0 rest).map (·.push c)

/-- Where a scan of an expression stands: plain code, or inside a string with one or three
quotes. -/
inductive Quoting where
  | code
  | single (quote : Char)
  | triple (quote : Char)

def closing? (c : Char) : Option Char :=
  if c = '(' then some ')' else if c = '[' then some ']'
  else if c = openBrace then some closeBrace else none

def isClosing (c : Char) : Bool := c == ')' || c == ']' || c == closeBrace

/-- What a scan of an expression carries: the brackets to be closed, innermost first, and how
many of the next characters are known to belong to the token before. -/
structure Scan where
  quoting : Quoting
  brackets : List Char
  skip : Nat

/-- The scan after a character, or nothing where the expression ends; `none` where it is
malformed. It ends at the first `!`, `:`, `=` or closing brace that is in no bracket and no
comparison. It holds no backslash and no `#`. -/
def Scan.step (scan : Scan) (c : Char) (rest : List Char) : Option (Option Scan) :=
  if c = '\\' then none
  else if 0 < scan.skip then some (some { scan with skip := scan.skip - 1 })
  else match scan.quoting with
  | .single quote =>
    some (some (if c = quote then { scan with quoting := .code } else scan))
  | .triple quote =>
    if c = quote ∧ rest.take 2 = [quote, quote] then
      some (some { scan with quoting := .code, skip := 2 })
    else some (some scan)
  | .code =>
    if c = '\x27' ∨ c = '\x22' then
      if rest.take 2 = [c, c] then some (some { scan with quoting := .triple c, skip := 2 })
      else some (some { scan with quoting := .single c })
    else match closing? c with
    | some close => some (some { scan with brackets := close :: scan.brackets })
    | none =>
      if c = '#' then none
      else if scan.brackets.isEmpty && ['!', ':', closeBrace, '=', '>', '<'].contains c then
        if rest.head? = some '=' ∧ ['!', '=', '>', '<'].contains c then
          some (some { scan with skip := 1 })
        else if c = '>' ∨ c = '<' then some (some scan)
        else some none
      else if isClosing c then
        match scan.brackets with
        | close :: outer => if c = close then some (some { scan with brackets := outer }) else none
        | [] => none
      else some (some scan)

/-- The expression at the start of a field, and the text after it, which is not empty. -/
def expression (scan : Scan) : List Char → Option (List Char × List Char)
  | [] => none
  | c :: rest =>
    match scan.step c rest with
    | none => none
    | some none => some ([], c :: rest)
    | some (some scan) => (expression scan rest).map fun (text, rest) => (c :: text, rest)

def isEmptyText (text : List Char) : Bool :=
  text.all fun c => c == ' ' || c == '\t' || c == '\n' || c == '\x0c'

/-- An equals sign asks for the expression's own text; blanks may follow it. -/
def afterEquals : List Char → List Char
  | '=' :: rest => rest.dropWhile fun c => c == ' ' || ('\t' ≤ c && c ≤ '\r')
  | rest => rest

def afterConversion? : List Char → Option (List Char)
  | '!' :: c :: rest => if c == 's' || c == 'r' || c == 'a' then some rest else none
  | ['!'] => none
  | rest => some rest

/-- Fields may stand in the format of a field, but not in the format of such a field. -/
def maxLevel : Nat := 2

/-- The expressions of the fields in order, and the text after a format; at level zero there is
none. The first argument bounds the number of pieces. -/
def fieldsFrom (named? : String → Option Nat) (isRaw : Bool) :
    Nat → Nat → List Char → Option (List (List Char) × List Char)
  | 0, _, _ => none
  | fuel + 1, level, text => do
    let next ← piece isRaw (0 < level) false 0 text
    let _ ← if isRaw then some [] else Literal.unescape named? false next.text
    if next.doubled then fieldsFrom named? isRaw fuel level next.rest
    else match next.rest with
    | [] => return ([], [])
    | c :: inner =>
      if c = closeBrace then return ([], next.rest)
      if maxLevel ≤ level then none
      let (field, rest) ← expression ⟨.code, [], 0⟩ inner
      if isEmptyText field then none
      let rest ← afterConversion? (afterEquals rest)
      let (nested, rest) ← match rest with
        | ':' :: format => fieldsFrom named? isRaw fuel (level + 1) format
        | rest => some ([], rest)
      match rest with
      | d :: rest =>
        if d ≠ closeBrace then none
        let (more, rest) ← fieldsFrom named? isRaw fuel level rest
        return (field :: nested ++ more, rest)
      | [] => none

def fields (named? : String → Option Nat) (isRaw : Bool) (body : List Char) :
    Option (List (List Char)) :=
  (fieldsFrom named? isRaw (2 * body.length + 2) 0 body).map (·.1)

end EnumLookup.Source.FormatString
