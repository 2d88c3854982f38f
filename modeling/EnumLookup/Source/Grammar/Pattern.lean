import EnumLookup.Source.Grammar.Expression

/-!
Patterns of a case. They bind names, but none that declarations are found by, so only
their form is checked. Nested patterns belong to the level below.
-/
namespace EnumLookup.Source

open EnumLookup.Source.Parser

namespace Pattern

/-- Signs after which a name is neither bound nor complete. -/
def goesOn : Parser Bool := do
  match ← peek with
  | .op text => return text == "." || text == "(" || text == "="
  | _ => return false

/-- A name to be bound; the underscore binds nothing. -/
def capture : Parser PUnit := do
  require (!(← nextIsWord "_"))
  let _ ← identifier
  require (!(← goesOn))

def number : Parser Bool := do
  match ← peek with
  | .number isImaginary =>
    let _ ← next
    return isImaginary
  | _ => fail

def signedNumber : Parser PUnit := do
  let _ ← op? "-"
  let isImaginary ← number
  if (← op? "+") || (← op? "-") then
    require (!isImaginary)
    require (← number)

def literal (g : ExprGrammar) : Parser PUnit := do
  match ← peek with
  | .string _ _ =>
    let _ ← g.strings
  | .keyword word =>
    require (["None", "True", "False"].contains word)
    let _ ← next
  | _ => signedNumber

def attributes : Parser Nat := do
  let names ← many (op? ".") identifier
  return names.length

def key (g : ExprGrammar) : Parser PUnit := do
  match ← peek with
  | .name _ _ =>
    let _ ← identifier
    require (0 < (← attributes))
  | _ => literal g

def item (pattern : Parser PUnit) : Parser Bool := do
  if ← op? "*" then
    if ← nextIsWord "_" then
      let _ ← next
    else capture
    return true
  else
    pattern
    return false

/-- One pattern alone in parentheses is that pattern, and not starred. -/
def parenthesised (pattern : Parser PUnit) : Parser PUnit := do
  op "("
  if ← op? ")" then return
  let isStarred ← item pattern
  if ← op? "," then
    let _ ← listed (nextIsOp ")") (item pattern)
  else require (!isStarred)
  op ")"

def bracketed (pattern : Parser PUnit) : Parser PUnit := do
  op "["
  let _ ← listed (nextIsOp "]") (item pattern)
  op "]"

/-- Keys with patterns; the rest of the mapping comes last. -/
def entriesFrom (g : ExprGrammar) (pattern : Parser PUnit) : List Token → Parser PUnit
  | [] => fail
  | _ :: bound => do
    if ← nextIsOp "\x7d" then return
    if ← op? "**" then
      capture
      let _ ← op? ","
    else
      key g
      op ":"
      pattern
      if ← op? "," then entriesFrom g pattern bound

def mapping (g : ExprGrammar) (pattern : Parser PUnit) : Parser PUnit := do
  op "\x7b"
  bounded (entriesFrom g pattern)
  op "\x7d"

/-- Patterns for the arguments of a class; those with a name come last. -/
def argumentsFrom (pattern : Parser PUnit) : List Token → Bool → Parser PUnit
  | [], _ => fail
  | _ :: bound, named => do
    if ← nextIsOp ")" then return
    let named' ← match ← peek, ← peekSecond with
      | .name _ _, .op "=" =>
        let _ ← next
        let _ ← next
        pattern
        pure true
      | _, _ =>
        require (!named)
        pattern
        pure false
    if ← op? "," then argumentsFrom pattern bound named'

def classArguments (pattern : Parser PUnit) : Parser PUnit := do
  op "("
  bounded fun bound => argumentsFrom pattern bound false
  op ")"

def named (pattern : Parser PUnit) : Parser PUnit := do
  if ← nextIsWord "_" then
    let _ ← next
  else
    let _ ← identifier
    let _ ← attributes
    if ← nextIsOp "(" then classArguments pattern
    else require (!(← nextIsOp "="))

def closed (g : ExprGrammar) (pattern : Parser PUnit) : Parser PUnit := do
  match ← peek with
  | .name _ _ => named pattern
  | .op "(" => parenthesised pattern
  | .op "[" => bracketed pattern
  | .op "\x7b" => mapping g pattern
  | _ => literal g

def level (g : ExprGrammar) (pattern : Parser PUnit) : Parser PUnit := do
  let _ ← separated "|" (closed g pattern)
  if ← keyword? "as" then capture

def ofDepth (g : ExprGrammar) : Nat → Parser PUnit
  | 0 => fail
  | depth + 1 => level g (ofDepth g depth)

def atEnd : Parser Bool := do
  match ← peek with
  | .op text => return text == ":"
  | .keyword word => return word == "if"
  | _ => return false

def patterns (pattern : Parser PUnit) : Parser PUnit := do
  let isStarred ← item pattern
  if ← op? "," then
    let _ ← listed atEnd (item pattern)
  else require (!isStarred)

end Pattern

end EnumLookup.Source
