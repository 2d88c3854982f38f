import EnumLookup.Text.PrintableTable

/-!
Quoted text in messages: what a reader cannot see is written as an escape, and the
quote is the one that needs no escape where there is a choice.
-/
namespace EnumLookup.Text

def isPrintable (c : Char) : Bool :=
  if c.toNat < 128 then ' ' ≤ c && c ≤ '~' else printableTable.contains c.toNat

def decimal (n : Nat) : String := String.ofList (Nat.toDigits 10 n)

/-- Lowercase hexadecimal digits, with zeros in front up to `width`. -/
def hexDigits (width code : Nat) : List Char :=
  let digits := Nat.toDigits 16 code
  List.replicate (width - digits.length) '0' ++ digits

/-- The escape of a code point in the shortest of the forms with two, four or eight digits. -/
def codeEscape (code : Nat) : List Char :=
  if code ≤ 0xFF then '\\' :: 'x' :: hexDigits 2 code
  else if code ≤ 0xFFFF then '\\' :: 'u' :: hexDigits 4 code
  else '\\' :: 'U' :: hexDigits 8 code

def quotedChar (quote c : Char) : List Char :=
  if c = quote ∨ c = '\\' then ['\\', c]
  else if c = '\n' then ['\\', 'n']
  else if c = '\r' then ['\\', 'r']
  else if c = '\t' then ['\\', 't']
  else if isPrintable c then [c]
  else codeEscape c.toNat

def singleQuote : Char := '\x27'
def doubleQuote : Char := '\x22'

/-- Double quotes serve a text that holds a single quote and no double one. -/
def quoteFor (text : List Char) : Char :=
  if text.contains singleQuote && !text.contains doubleQuote then doubleQuote else singleQuote

def quoted (text : String) : String :=
  let quote := quoteFor text.toList
  String.ofList (quote :: text.toList.flatMap (quotedChar quote) ++ [quote])

end EnumLookup.Text
