/-!
File name patterns. `*` stands for any text, slashes included, `?` for one character, and a
bracketed class for one of its characters; a pattern matches a whole text. A class
opens with `[`; a `]` in its first place is a member, and without a closing `]` the
bracket is an ordinary character.
-/
namespace EnumLookup.Glob

/-- A member of a class: single characters, and ranges with both ends included. -/
inductive ClassItem where
  | single (c : Char)
  | range (first last : Char)
  deriving DecidableEq, Repr

inductive Token where
  | many
  | one
  | char (c : Char)
  | class (negated : Bool) (items : List ClassItem)
  deriving DecidableEq, Repr

def ClassItem.admits (c : Char) : ClassItem → Bool
  | .single d => c == d
  | .range first last => first ≤ c && c ≤ last

def Token.admits (c : Char) : Token → Bool
  | .many => true
  | .one => true
  | .char d => c == d
  | .class negated items => negated != items.any (·.admits c)

/-- The body of a class after its bracket, and the pattern after the closing bracket. -/
def splitClass? (pattern : List Char) : Option (List Char × List Char) :=
  let (lead, rest) := match pattern with
    | '!' :: rest => (['!'], rest)
    | rest => ([], rest)
  let (first, rest) := match rest with
    | ']' :: rest => ([']'], rest)
    | rest => ([], rest)
  match rest.dropWhile (· ≠ ']') with
  | [] => none
  | _ :: after => some (lead ++ first ++ rest.takeWhile (· ≠ ']'), after)

/-- Cuts a class body at the hyphens that join a range. A hyphen in one of the first `held`
places joins nothing; the places of a range's last character and of the one after it are
held too. Cuts are in order; the pieces are never empty, but for the last. -/
def cutRanges : Nat → List Char → List Char → List (List Char)
  | _, piece, [] => [piece.reverse]
  | 0, piece, '-' :: rest => piece.reverse :: cutRanges 2 [] rest
  | held, piece, c :: rest => cutRanges (held - 1) (c :: piece) rest

/-- A hyphen at the end of the body joins nothing: it belongs to the piece before it. -/
def keepLastHyphen : List (List Char) → List (List Char)
  | [] => []
  | [piece] => [piece]
  | [piece, []] => [piece ++ ['-']]
  | piece :: pieces => piece :: keepLastHyphen pieces

/-- Ranges whose ends are in the wrong order are empty; their ends go, and the pieces join. -/
def dropEmptyRanges : List (List Char) → List (List Char)
  | [] => []
  | piece :: pieces =>
    match dropEmptyRanges pieces with
    | [] => [piece]
    | next :: later =>
      match piece.getLast?, next.head? with
      | some first, some last =>
        if last < first then (piece.dropLast ++ next.drop 1) :: later
        else piece :: next :: later
      | _, _ => piece :: next :: later

/-- A class body once its ranges are known: its characters and the hyphens between the ends of a
range. -/
inductive Mark where
  | char (c : Char)
  | to

def marks : List (List Char) → List Mark
  | [] => []
  | [piece] => piece.map .char
  | piece :: pieces => piece.map .char ++ .to :: marks pieces

/-- A joining hyphen with no character before it is a member itself. -/
def items : List Mark → List ClassItem
  | [] => []
  | .char first :: .to :: .char last :: rest => .range first last :: items rest
  | .char c :: rest => .single c :: items rest
  | .to :: rest => .single '-' :: items rest

/-- A leading `!` excludes the members that follow it. -/
def classToken (body : List Char) : Token :=
  let held := if body.head? = some '!' then 2 else 1
  match marks (dropEmptyRanges (keepLastHyphen (cutRanges held [] body))) with
  | .char '!' :: rest => .class true (items rest)
  | members => .class false (items members)

def tokensFrom : Nat → List Char → List Token
  | 0, _ => []
  | _, [] => []
  | fuel + 1, '*' :: rest => .many :: tokensFrom fuel rest
  | fuel + 1, '?' :: rest => .one :: tokensFrom fuel rest
  | fuel + 1, '[' :: rest =>
    match splitClass? rest with
    | some (body, after) => classToken body :: tokensFrom fuel after
    | none => .char '[' :: tokensFrom fuel rest
  | fuel + 1, c :: rest => .char c :: tokensFrom fuel rest

def tokens (pattern : String) : List Token :=
  tokensFrom pattern.length pattern.toList

def suffixes : List Char → List (List Char)
  | [] => [[]]
  | c :: rest => (c :: rest) :: suffixes rest

/-- What is left of the text after the tokens, for every way to match them. Repeated
suffixes are dropped, so the work stays within the square of the text. -/
def remainders : List Token → List (List Char) → List (List Char)
  | [], texts => texts
  | .many :: rest, texts =>
    match texts with
    | [] => []
    | longest :: _ => remainders rest (suffixes longest)
  | token :: rest, texts =>
    remainders rest <| texts.filterMap fun
      | [] => none
      | c :: after => if token.admits c then some after else none

/-- Remainders are in order of decreasing length, so the first one covers the others. -/
def matchesTokens (pattern : List Token) (text : List Char) : Bool :=
  (remainders pattern [text]).any List.isEmpty

/-- Whether the pattern stands for the whole text. -/
def accepts (pattern text : String) : Bool := matchesTokens (tokens pattern) text.toList

end EnumLookup.Glob
