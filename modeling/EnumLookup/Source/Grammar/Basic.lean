import EnumLookup.Source.Token

/-!
Parsers over tokens. A parser fails without saying where: only the verdict is of interest.
Repetitions are bounded by the tokens left, since every round takes at least one.
-/
namespace EnumLookup.Source

abbrev Parser := StateT (List Token) Option

namespace Parser

variable {α β : Type}

def peek : Parser TokenKind := fun tokens =>
  some ((tokens.head?.map (·.kind)).getD .endOfInput, tokens)

def peekSecond : Parser TokenKind := fun tokens =>
  some ((tokens[1]?.map (·.kind)).getD .endOfInput, tokens)

def fail : Parser α := fun _ => none

def require (condition : Bool) : Parser PUnit := if condition then pure ⟨⟩ else fail

def next : Parser Token
  | [] => none
  | token :: rest => some (token, rest)

def take? (kind : TokenKind) : Parser Bool := fun tokens =>
  match tokens with
  | [] => some (false, [])
  | token :: rest => if token.kind = kind then some (true, rest) else some (false, token :: rest)

def expect (kind : TokenKind) : Parser PUnit := do require (← take? kind)

def nextIs (kind : TokenKind) : Parser Bool := return (← peek) == kind

def op? (text : String) : Parser Bool := take? (.op text)
def op (text : String) : Parser PUnit := expect (.op text)
def nextIsOp (text : String) : Parser Bool := nextIs (.op text)
def keyword? (word : String) : Parser Bool := take? (.keyword word)
def keyword (word : String) : Parser PUnit := expect (.keyword word)
def nextIsKeyword (word : String) : Parser Bool := nextIs (.keyword word)

def identifier : Parser String
  | ⟨.name _ id, _⟩ :: rest => some (id, rest)
  | _ => none

/-- Whether the next token is a word that is reserved in some places only. -/
def nextIsWord (word : String) : Parser Bool := do
  match ← peek with
  | .name spelling _ => return spelling == word
  | _ => return false

def when? (condition : Parser Bool) (parser : Parser α) : Parser (Option α) := do
  if ← condition then return some (← parser) else return none

/-- Runs a loop with the tokens left as the bound of its rounds. Every round but the last takes a
token, and the end of the input, which closes the tokens, is taken by none. -/
def bounded (loop : List Token → Parser α) : Parser α := fun tokens => loop tokens tokens

def manyFrom (continues : Parser Bool) (parser : Parser α) : List Token → Parser (List α)
  | [] => fail
  | _ :: bound => do
    if ← continues then
      let first ← parser
      return first :: (← manyFrom continues parser bound)
    else return []

def many (continues : Parser Bool) (parser : Parser α) : Parser (List α) :=
  bounded (manyFrom continues parser)

def separated (separator : String) (parser : Parser α) : Parser (List α) := do
  let first ← parser
  return first :: (← many (op? separator) parser)

def listedFrom (atEnd : Parser Bool) (parser : Parser α) : List Token → Parser (List α)
  | [] => fail
  | _ :: bound => do
    if ← atEnd then return []
    let first ← parser
    if ← op? "," then return first :: (← listedFrom atEnd parser bound) else return [first]

/-- Items with commas between them and perhaps one at the end. `atEnd` looks for what may follow
the list. -/
def listed (atEnd : Parser Bool) (parser : Parser α) : Parser (List α) :=
  bounded (listedFrom atEnd parser)

def orElse (first second : Parser α) : Parser α := fun tokens =>
  match first tokens with
  | some outcome => some outcome
  | none => second tokens

def chain (first : Parser α) (continues : Parser Bool) (step : α → Parser α) : Parser α := do
  let start ← first
  bounded fun bound => go step continues bound start
where
  go (step : α → Parser α) (continues : Parser Bool) : List Token → α → Parser α
    | [], _ => fail
    | _ :: bound, value => do
      if ← continues then go step continues bound (← step value) else return value

end Parser

end EnumLookup.Source
