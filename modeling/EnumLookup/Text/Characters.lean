/-!
Names of characters. Which there are depends on a version of Unicode, so they are a parameter of
all that reads a source, and nothing is assumed of them.
-/
namespace EnumLookup.Text

class Characters where
  /-- The code point of the character of a name. -/
  named? : String → Option Nat

def isNameChar (c : Char) : Bool := c.isAlphanum || c == ' ' || c == '-'

/-- What stands in for the names where no others are given: everything that looks like a name is
one, that of the replacement character. -/
instance Characters.standIn : Characters where
  named? name := if name.toList.all isNameChar then some 0xFFFD else none

end EnumLookup.Text
