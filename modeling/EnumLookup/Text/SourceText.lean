import EnumLookup.Text.Quoted

/-!
Decoded source text. A decoder can deliver surrogates, which no character is and which
have no UTF-8 form, so a text is a list of code points; `toString?` reads it as a
string when it holds none.
-/
namespace EnumLookup.Text

/-- A Unicode code point: a character or one of the 2048 surrogates from U+D800 on. -/
inductive CodePoint where
  | scalar (c : Char)
  | surrogate (offset : Fin 0x800)
  deriving DecidableEq, Repr

namespace CodePoint

def code : CodePoint → Nat
  | scalar c => c.toNat
  | surrogate offset => 0xD800 + offset.val

def ofCode? (code : Nat) : Option CodePoint :=
  if h : code.isValidChar then some (scalar (Char.ofNatAux code h))
  else if h : 0xD800 ≤ code ∧ code < 0xE000 then some (surrogate ⟨code - 0xD800, by omega⟩)
  else none

def char? : CodePoint → Option Char
  | scalar c => some c
  | surrogate _ => none

end CodePoint

structure SourceText where
  points : List CodePoint
  deriving DecidableEq, Repr

/-- A run of surrogates: where it starts and ends, and the code point at its start. -/
structure EncodeError where
  first : Nat
  last : Nat
  code : Nat
  deriving DecidableEq, Repr

namespace SourceText

def ofChars (cs : List Char) : SourceText := ⟨cs.map .scalar⟩

def ofString (s : String) : SourceText := ofChars s.toList

def chars? (text : SourceText) : Option (List Char) := text.points.mapM CodePoint.char?

/-- The same text as a string, when it holds no surrogate. -/
def toString? (text : SourceText) : Option String := text.chars?.map String.ofList

theorem mapM_char?_scalar (cs : List Char) :
    (cs.map CodePoint.scalar).mapM CodePoint.char? = some cs := by
  induction cs with
  | nil => rfl
  | cons c cs ih => simp [List.mapM_cons, CodePoint.char?, ih]

@[simp] theorem chars?_ofChars (cs : List Char) : (ofChars cs).chars? = some cs :=
  mapM_char?_scalar cs

@[simp] theorem toString?_ofString (s : String) : (ofString s).toString? = some s := by
  simp [toString?, ofString]

def firstSurrogates? (position : Nat) : List CodePoint → Option EncodeError
  | [] => none
  | .scalar _ :: rest => firstSurrogates? (position + 1) rest
  | .surrogate offset :: rest =>
    let more := (rest.takeWhile (·.char?.isNone)).length
    some ⟨position, position + more, 0xD800 + offset.val⟩

/-- The text as a string, which has a UTF-8 form, or the run of surrogates that denies it one. -/
def encodable (text : SourceText) : Except EncodeError String :=
  match text.toString? with
  | some s => .ok s
  | none => .error ((firstSurrogates? 0 text.points).getD ⟨0, 0, 0⟩)

end SourceText

def EncodeError.message (error : EncodeError) : String :=
  let reason := ": surrogates not allowed"
  if error.first = error.last then
    "'utf-8' codec can't encode character '" ++ String.ofList (codeEscape error.code) ++
      "' in position " ++ decimal error.first ++ reason
  else
    "'utf-8' codec can't encode characters in position " ++ decimal error.first ++ "-" ++
      decimal error.last ++ reason

end EnumLookup.Text
