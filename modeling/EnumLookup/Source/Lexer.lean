import EnumLookup.Source.Number
import EnumLookup.Source.Token
import EnumLookup.Text.Identifier

/-!
From text to tokens. Lines end at a line feed; indentation is compared twice, with a tab
going to the next multiple of eight and with a tab as one blank, and must agree in both.
Inside brackets line ends and indentation do not count.
-/
namespace EnumLookup.Source

open Text

/-- Line ends of every kind become line feeds. -/
def unifyLineEnds : List Char → List Char
  | '\r' :: '\n' :: rest => '\n' :: unifyLineEnds rest
  | c :: rest => (if c = '\r' then '\n' else c) :: unifyLineEnds rest
  | [] => []

def closeLastLine (text : List Char) : List Char :=
  if text.isEmpty || text.getLast? = some '\n' then text else text ++ ['\n']

namespace Position

def start : Position := ⟨1, 0⟩

def after (position : Position) (c : Char) : Position :=
  if c = '\n' then ⟨position.line + 1, 0⟩ else ⟨position.line, position.column + c.utf8Size⟩

def afterAll (position : Position) (cs : List Char) : Position := cs.foldl after position

end Position

/-- The width of an indentation, counted in both ways. -/
structure Indentation where
  column : Nat
  narrow : Nat
  deriving DecidableEq, Repr

def Indentation.zero : Indentation := ⟨0, 0⟩

/-- Where the lexer stands: what is left, the brackets to be closed and the indentations to be
left, both innermost first, and whether a line starts here. -/
structure Lexer where
  position : Position
  input : List Char
  brackets : List Char
  indents : List Indentation
  lineStart : Bool

namespace Lexer

def maxIndents : Nat := 99
def maxBrackets : Nat := 200

def skip (lexer : Lexer) (count : Nat) : Lexer :=
  { lexer with
    position := lexer.position.afterAll (lexer.input.take count)
    input := lexer.input.drop count }

/-- What opens a line. A backslash at the end of a line of blanks continues it, and the blanks
before the first such backslash are the indentation if there are any. -/
structure LineOpening where
  indentation : Indentation
  /-- The column at the first backslash, zero when there is none. -/
  continued : Nat
  length : Nat

def LineOpening.effective (opening : LineOpening) : Indentation :=
  if opening.continued = 0 then opening.indentation
  else ⟨opening.continued, opening.continued⟩

def tabWidth : Nat := 8

def LineOpening.widen (opening : LineOpening) (indentation : Indentation) : LineOpening :=
  { opening with indentation, length := opening.length + 1 }

/-- Keeps the column of the first backslash; the backslash and the line end are two characters. -/
def LineOpening.carryOn (opening : LineOpening) : LineOpening :=
  { opening with
    continued := if opening.continued = 0 then opening.indentation.column else opening.continued
    length := opening.length + 2 }

/-- Reads indentation. A form feed starts it anew. -/
def openLine (seen : LineOpening) : List Char → Option LineOpening
  | ' ' :: rest =>
    openLine (seen.widen ⟨seen.indentation.column + 1, seen.indentation.narrow + 1⟩) rest
  | '\t' :: rest =>
    openLine (seen.widen ⟨(seen.indentation.column / tabWidth + 1) * tabWidth,
      seen.indentation.narrow + 1⟩) rest
  | '\x0c' :: rest => openLine (seen.widen .zero) rest
  | '\\' :: '\n' :: rest => if rest.isEmpty then none else openLine seen.carryOn rest
  | '\\' :: _ => none
  | _ => some seen

/-- The indentations left when a line is indented less than the ones before it, and how many were
left. -/
def leave (column : Nat) : List Indentation → List Indentation × Nat
  | [] => ([], 0)
  | indent :: outer =>
    if column < indent.column then
      let (kept, count) := leave column outer
      (kept, count + 1)
    else (indent :: outer, 0)

def changeIndent (indents : List Indentation) (line : Indentation) :
    Option (List TokenKind × List Indentation) :=
  let current := indents.head?.getD .zero
  if line.column = current.column then
    if line.narrow = current.narrow then some ([], indents) else none
  else if current.column < line.column then
    if indents.length < maxIndents ∧ current.narrow < line.narrow then
      some ([.indent], line :: indents)
    else none
  else
    let (kept, count) := leave line.column indents
    if kept.head?.getD .zero = line then some (List.replicate count .dedent, kept) else none

def commentLength (input : List Char) : Nat :=
  if input.head? = some '#' then (input.takeWhile (· ≠ '\n')).length else 0

/-- Starts a line: nothing but a change of indentation is reported. A line without code changes
none; nor does a line inside brackets. -/
def startLine (lexer : Lexer) : Option (List Token × Lexer) := do
  let opening ← openLine ⟨.zero, 0, 0⟩ lexer.input
  let here := lexer.skip opening.length
  let behind := here.skip (commentLength here.input)
  if behind.input.head? = some '\n' then return ([], behind.skip 1)
  if here.input.head? = some '#' || !lexer.brackets.isEmpty then
    return ([], { behind with lineStart := false })
  let (kinds, indents) ← changeIndent lexer.indents opening.effective
  return (kinds.map (⟨·, here.position⟩), { here with indents, lineStart := false })

def threeCharOps : List String := ["**=", "//=", ">>=", "<<=", "..."]
def twoCharOps : List String :=
  ["!=", "%=", "&=", "**", "*=", "+=", "-=", "->", "//", "/=", ":=", "<<", "<=", "==", ">=",
   ">>", "@=", "^=", "|="]
def oneCharOps : List Char :=
  ['%', '&', '(', ')', '*', '+', ',', '-', '.', '/', ':', ';', '<', '=', '>', '@', '[', ']',
   '^', '\x7b', '|', '\x7d', '~']

def operator? (input : List Char) : Option String :=
  if threeCharOps.contains (String.ofList (input.take 3)) then some (String.ofList (input.take 3))
  else if twoCharOps.contains (String.ofList (input.take 2)) then
    some (String.ofList (input.take 2))
  else match input with
    | c :: _ => if oneCharOps.contains c then some (String.singleton c) else none
    | [] => none

def changeBrackets (brackets : List Char) (op : String) : Option (List Char) :=
  let enter (close : Char) : Option (List Char) :=
    if brackets.length < maxBrackets then some (close :: brackets) else none
  let exit (close : Char) : Option (List Char) :=
    match brackets with
    | c :: outer => if c = close then some outer else none
    | [] => none
  if op = "(" then enter ')'
  else if op = "[" then enter ']'
  else if op = "\x7b" then enter '\x7d'
  else if op = ")" then exit ')'
  else if op = "]" then exit ']'
  else if op = "\x7d" then exit '\x7d'
  else some brackets

def isQuote (c : Char) : Bool := c == '\x27' || c == '\x22'

/-- The letters before a string literal, in lower case, and the text from its quote on. -/
def stringStart? (input : List Char) : Option (List Char × List Char) :=
  match input with
  | a :: rest =>
    if isQuote a then some ([], input)
    else match rest with
      | b :: rest' =>
        if isQuote b then some ([a.toLower], rest)
        else match rest' with
          | c :: _ => if isQuote c then some ([a.toLower, b.toLower], rest') else none
          | [] => none
      | [] => none
  | [] => none

def stringKind? (letters : List Char) : Option StringKind :=
  match letters with
  | [] => some ⟨false, false, false⟩
  | ['u'] => some ⟨false, false, false⟩
  | ['r'] => some ⟨false, true, false⟩
  | ['b'] => some ⟨true, false, false⟩
  | ['f'] => some ⟨false, false, true⟩
  | ['b', 'r'] | ['r', 'b'] => some ⟨true, true, false⟩
  | ['f', 'r'] | ['r', 'f'] => some ⟨false, true, true⟩
  | _ => none

def shortBody (quote : Char) : List Char → Option (List Char)
  | [] => none
  | '\\' :: c :: rest => (shortBody quote rest).map fun body => '\\' :: c :: body
  | c :: rest =>
    if c = quote then some []
    else if c = '\n' then none
    else (shortBody quote rest).map (c :: ·)

def longBody (quote : Char) : List Char → Option (List Char)
  | [] => none
  | '\\' :: c :: rest => (longBody quote rest).map fun body => '\\' :: c :: body
  | c :: rest =>
    if c = quote ∧ rest.take 2 = [quote, quote] then some []
    else (longBody quote rest).map (c :: ·)

def stringBody (text : List Char) : Option (List Char × Nat) :=
  match text with
  | a :: b :: c :: rest =>
    if a = b ∧ b = c then (longBody a rest).map fun body => (body, body.length + 6)
    else (shortBody a (b :: c :: rest)).map fun body => (body, body.length + 2)
  | a :: rest => (shortBody a rest).map fun body => (body, body.length + 2)
  | [] => none

/-- A string literal at the start of the input, if one starts there: its kind, the number of
letters before its quote, and the text from the quote on. -/
def string? (input : List Char) : Option (StringKind × Nat × List Char) := do
  let (letters, text) ← stringStart? input
  let kind ← stringKind? letters
  return (kind, letters.length, text)

def mayStartName (c : Char) : Bool := c.isAlpha || c == '_' || 128 ≤ c.toNat

def word? (spelling : List Char) : Option TokenKind :=
  let text := String.ofList spelling
  if Identifier.isKeyword text then some (.keyword text)
  else if Identifier.isIdentifierChars spelling then
    some (.name text (String.ofList (Composed.normalize spelling)))
  else none

/-- Characters that a number literal or what stands right behind it may have. -/
def isNearNumber (c : Char) : Bool :=
  Number.mayContinueName c || c == '.' || c == '+' || c == '-'

def numberLength? (input : List Char) : Option Nat :=
  let near := input.takeWhile isNearNumber
  (Number.after near).map fun rest => near.length - rest.length

/-- Whether a number literal ends in the imaginary unit, which no digit is. -/
def hasUnit (literal : List Char) : Bool :=
  literal.getLast? = some 'j' || literal.getLast? = some 'J'

def tokenAt (input : List Char) : Option (TokenKind × Nat) :=
  match string? input with
  | some (kind, letters, text) =>
    (stringBody text).map fun (body, length) => (.string kind body, letters + length)
  | none =>
    match input with
    | [] => none
    | c :: rest =>
      if mayStartName c then
        let spelling := input.takeWhile Number.mayContinueName
        (word? spelling).map fun kind => (kind, spelling.length)
      else if Number.isDigit c || (c == '.' && (rest.take 1).any Number.isDigit) then
        (numberLength? input).map fun length =>
          (.number (hasUnit (input.take length)), length)
      else (operator? input).map fun op => (.op op, op.length)

def isBlank (c : Char) : Bool := c == ' ' || c == '\t' || c == '\x0c'

/-- One token of a started line, or a line end that is none, or a continued line. -/
def nextToken (lexer : Lexer) : Option (List Token × Lexer) :=
  match lexer.input with
  | '\n' :: _ =>
    let next := { lexer.skip 1 with lineStart := true }
    if lexer.brackets.isEmpty then some ([⟨.newline, lexer.position⟩], next)
    else some ([], next)
  | '\\' :: '\n' :: rest => if rest.isEmpty then none else some ([], lexer.skip 2)
  | input => do
    let (kind, length) ← tokenAt input
    let brackets ← match kind with
      | .op text => changeBrackets lexer.brackets text
      | _ => some lexer.brackets
    return ([⟨kind, lexer.position⟩], { lexer.skip length with brackets })

def skipBlanks (lexer : Lexer) : Lexer :=
  let here := lexer.skip (lexer.input.takeWhile isBlank).length
  here.skip (commentLength here.input)

def tokens : Nat → Lexer → Option (List Token)
  | 0, _ => none
  | fuel + 1, lexer =>
    if lexer.lineStart then do
      let (first, lexer) ← lexer.startLine
      return first ++ (← tokens fuel lexer)
    else
      let lexer := lexer.skipBlanks
      if lexer.input.isEmpty then
        if lexer.brackets.isEmpty then some [⟨.endOfInput, lexer.position⟩] else none
      else do
        let (first, lexer) ← lexer.nextToken
        return first ++ (← tokens fuel lexer)

end Lexer

def tokenize (text : List Char) : Option (List Token) :=
  Lexer.tokens (2 * text.length + 2) ⟨.start, text, [], [], true⟩

end EnumLookup.Source
