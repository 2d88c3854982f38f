import EnumLookup.Text.Composed
import EnumLookup.Text.IdentifierTable

/-!
Identifiers: which texts may name a thing in a source file, and which of those are
reserved. Identifiers are compared in their composed form.
-/
namespace EnumLookup.Text.Identifier

def isStart (c : Char) : Bool :=
  if c.toNat < 128 then c.isAlpha || c == '_' else startTable.contains c.toNat

def isContinue (c : Char) : Bool :=
  if c.toNat < 128 then c.isAlphanum || c == '_'
  else startTable.contains c.toNat || continueTable.contains c.toNat

def isIdentifierChars : List Char → Bool
  | [] => false
  | c :: rest => isStart c && rest.all isContinue

def isIdentifier (name : String) : Bool := isIdentifierChars name.toList

def keywords : List String :=
  ["False", "None", "True", "and", "as", "assert", "async", "await", "break", "class",
   "continue", "def", "del", "elif", "else", "except", "finally", "for", "from", "global",
   "if", "import", "in", "is", "lambda", "nonlocal", "not", "or", "pass", "raise", "return",
   "try", "while", "with", "yield"]

def isKeyword (name : String) : Bool := keywords.contains name

def isImportable (name : String) : Bool := isIdentifier name && !isKeyword name

theorem isContinue_of_isStart {c : Char} (h : isStart c = true) : isContinue c = true := by
  unfold isStart at h
  unfold isContinue
  split <;> simp_all [Char.isAlphanum]
  rcases h with h | h <;> simp [h]

/-- No identifier holds a dot, so dotted names can be taken apart again. -/
theorem not_isContinue_dot : isContinue '.' = false := by decide

end EnumLookup.Text.Identifier
