import EnumLookup.Text.SourceText

/-!
Decoders of source files, and those that are known here. A decoder reads a whole file, or
refuses it. Which decoders there are besides is a matter of the codecs that a process knows;
nothing is assumed of them.
-/
namespace EnumLookup

open Text

abbrev Decoder := List UInt8 → Option SourceText

abbrev Codecs := String → Option Decoder

inductive Encoding where
  | utf8
  | ascii
  | latin1
  | latin9
  | windows1252
  /-- Latin-1 with escapes `\uXXXX` and `\UXXXXXXXX` for other code points. -/
  | escaped
  deriving DecidableEq, Repr

namespace Encoding

/-- The names of an encoding itself, in lower case, with an underscore between words. -/
def ownNames : Encoding → List String
  | utf8 => ["utf_8", "utf_8_sig"]
  | ascii => ["ascii"]
  | latin1 => ["latin_1"]
  | latin9 => ["iso8859_15"]
  | windows1252 => ["cp1252"]
  | escaped => ["raw_unicode_escape"]

def aliases : Encoding → List String
  | utf8 => ["u8", "utf", "utf8", "utf8_ucs2", "utf8_ucs4", "cp65001"]
  | ascii =>
    ["646", "ansi_x3.4_1968", "ansi_x3_4_1968", "ansi_x3.4_1986", "cp367", "csascii", "ibm367",
     "iso646_us", "iso_646.irv_1991", "iso_ir_6", "us", "us_ascii"]
  | latin1 =>
    ["8859", "cp819", "csisolatin1", "ibm819", "iso8859", "iso8859_1", "iso_8859_1",
     "iso_8859_1_1987", "iso_ir_100", "l1", "latin", "latin1"]
  | latin9 => ["iso_8859_15", "latin9", "l9"]
  | windows1252 => ["1252", "windows_1252"]
  | escaped => []

def all : List Encoding := [utf8, ascii, latin1, latin9, windows1252, escaped]

/-- In an alias, a point may stand for an underscore. -/
def isNamed (name : String) (encoding : Encoding) : Bool :=
  let underscored := String.ofList (name.toList.map fun c => if c = '.' then '_' else c)
  encoding.ownNames.contains name || encoding.aliases.contains name ||
    encoding.aliases.contains underscored

def ofName? (name : String) : Option Encoding := all.find? (isNamed name)

/-- Letters, digits and points, with an underscore for all that stands between them. -/
def wordsOf : List Char → List Char
  | [] => []
  | c :: rest =>
    if c.isAlphanum || c == '.' then c.toLower :: wordsOf rest
    else match wordsOf rest with
      | [] => []
      | '_' :: more => '_' :: more
      | more => '_' :: more

def listedName (name : String) : String :=
  String.ofList (wordsOf (name.toList.dropWhile fun c => !(c.isAlphanum || c == '.')))

def latin1Char (byte : UInt8) : Char := Char.ofNat byte.toNat

def asciiChar? (byte : UInt8) : Option Char := if byte < 128 then some (latin1Char byte) else none

def latin9Char (byte : UInt8) : Char :=
  match byte with
  | 0xA4 => '\u20ac'
  | 0xA6 => '\u0160'
  | 0xA8 => '\u0161'
  | 0xB4 => '\u017d'
  | 0xB8 => '\u017e'
  | 0xBC => '\u0152'
  | 0xBD => '\u0153'
  | 0xBE => '\u0178'
  | _ => latin1Char byte

/-- The characters of the bytes from 0x80 to 0x9F; five of these bytes have none. -/
def windows1252Upper : List (Option Char) :=
  [some '\u20ac', none, some '\u201a', some '\u0192', some '\u201e', some '\u2026',
   some '\u2020', some '\u2021', some '\u02c6', some '\u2030', some '\u0160', some '\u2039',
   some '\u0152', none, some '\u017d', none, none, some '\u2018', some '\u2019', some '\u201c',
   some '\u201d', some '\u2022', some '\u2013', some '\u2014', some '\u02dc', some '\u2122',
   some '\u0161', some '\u203a', some '\u0153', none, some '\u017e', some '\u0178']

def windows1252Char? (byte : UInt8) : Option Char :=
  if 0x80 ≤ byte ∧ byte < 0xA0 then (windows1252Upper[byte.toNat - 0x80]?).join
  else some (latin1Char byte)

def hexValue? (c : Char) : Option Nat :=
  if '0' ≤ c ∧ c ≤ '9' then some (c.toNat - '0'.toNat)
  else if 'a' ≤ c ∧ c ≤ 'f' then some (c.toNat - 'a'.toNat + 10)
  else if 'A' ≤ c ∧ c ≤ 'F' then some (c.toNat - 'A'.toNat + 10)
  else none

def escapedPoint? (count : Nat) (digits : List Char) : Option CodePoint := do
  let values ← (digits.take count).mapM hexValue?
  if values.length < count then none
  CodePoint.ofCode? (values.foldl (fun code value => 16 * code + value) 0)

/-- Reads escapes; a backslash before any other character stands for itself, and so does that
character. The first argument counts the characters of an escape still to be passed over. -/
def unescape : Nat → List Char → Option (List CodePoint)
  | _, [] => some []
  | passed + 1, _ :: rest => unescape passed rest
  | 0, '\\' :: 'u' :: rest => do
    let point ← escapedPoint? 4 rest
    (unescape 4 rest).map (point :: ·)
  | 0, '\\' :: 'U' :: rest => do
    let point ← escapedPoint? 8 rest
    (unescape 8 rest).map (point :: ·)
  | 0, '\\' :: c :: rest => (unescape 0 rest).map ([.scalar '\\', .scalar c] ++ ·)
  | 0, c :: rest => (unescape 0 rest).map (.scalar c :: ·)

def decode (encoding : Encoding) : Decoder := fun bytes =>
  match encoding with
  | utf8 => (String.fromUTF8? ⟨bytes.toArray⟩).map .ofString
  | ascii => (bytes.mapM asciiChar?).map .ofChars
  | latin1 => some (.ofChars (bytes.map latin1Char))
  | latin9 => some (.ofChars (bytes.map latin9Char))
  | windows1252 => (bytes.mapM windows1252Char?).map .ofChars
  | escaped => (unescape 0 (bytes.map latin1Char)).map .mk

def codecs : Codecs := fun name => (ofName? (listedName name)).map decode

end Encoding

end EnumLookup
