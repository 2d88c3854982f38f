import EnumLookup.Encoding.Basic

/-!
The encoding that a file declares: by a byte order mark, or by a comment in one of its
first two lines, the second of which counts only below a line without code. A file that
declares none is UTF-8. A mark and a comment must agree.
-/
namespace EnumLookup.Encoding

open Text

def byteOrderMark : List UInt8 := [0xEF, 0xBB, 0xBF]

def splitMark (bytes : List UInt8) : Bool × List UInt8 :=
  if byteOrderMark.isPrefixOf bytes then (true, bytes.drop 3) else (false, bytes)

def splitLine (bytes : List UInt8) : List UInt8 × List UInt8 :=
  match bytes.dropWhile (· ≠ 10) with
  | [] => (bytes, [])
  | lineEnd :: rest => (bytes.takeWhile (· ≠ 10) ++ [lineEnd], rest)

def isMargin (c : Char) : Bool := c == ' ' || c == '\t' || c == '\x0c'

def isWithoutCode (line : List Char) : Bool :=
  match line.dropWhile isMargin with
  | [] => true
  | c :: _ => c == '#' || c == '\r' || c == '\n'

def isNameChar (c : Char) : Bool := c.isAlphanum || c == '_' || c == '-' || c == '.'

def keyword : List Char := "coding".toList

def nameAfterKeyword? (text : List Char) : Option String :=
  match text with
  | c :: rest =>
    let name := (rest.dropWhile fun c => c == ' ' || c == '\t').takeWhile isNameChar
    if (c == ':' || c == '=') && !name.isEmpty then some (String.ofList name) else none
  | [] => none

def declaredIn? : List Char → Option String
  | [] => none
  | c :: rest =>
    if keyword.isPrefixOf (c :: rest) then
      match nameAfterKeyword? (rest.drop (keyword.length - 1)) with
      | some name => some name
      | none => declaredIn? rest
    else declaredIn? rest

def declaredName? (line : List Char) : Option String :=
  match line.dropWhile isMargin with
  | '#' :: comment => declaredIn? (comment.takeWhile (· ≠ '\n'))
  | _ => none

/-- Lower case, with hyphens, cut to twelve characters. -/
def shortName (name : String) : List Char :=
  (name.toList.take 12).map fun c => if c = '_' then '-' else c.toLower

/-- Whether a name is one of the given ones, or such a name with a hyphen and more. -/
def isVariantOf (bases : List String) (name : List Char) : Bool :=
  bases.any fun base => name == base.toList || (base.toList ++ ['-']).isPrefixOf name

/-- Whether a name is spelled like UTF-8 with its hyphen. -/
def isPlainUtf8 (name : String) : Bool := isVariantOf ["utf-8"] (shortName name)

/-- The decoder of a declared name. Names that start like those of UTF-8 and Latin-1 are theirs. -/
def decoder? (codecs : Codecs) (name : String) : Option Decoder :=
  if isPlainUtf8 name then some utf8.decode
  else if isVariantOf ["latin-1", "iso-8859-1", "iso-latin-1"] (shortName name) then
    some latin1.decode
  else codecs name

/-- What a line says about the encoding: nothing when it declares none. A line that is not UTF-8,
or that declares an unknown encoding, makes the file unreadable; so does, under a mark, one
that is not UTF-8 by name. -/
inductive LineVerdict where
  | silent (line : List Char)
  | declares (decoder : Decoder)
  | unreadable

def judgeLine (codecs : Codecs) (marked : Bool) (line : List UInt8) : LineVerdict :=
  match String.fromUTF8? ⟨line.toArray⟩ with
  | none => .unreadable
  | some text =>
    match declaredName? text.toList with
    | none => .silent text.toList
    | some name =>
      match decoder? codecs name with
      | none => .unreadable
      | some decoder => if marked && !isPlainUtf8 name then .unreadable else .declares decoder

def ofContent? (codecs : Codecs) (marked : Bool) (bytes : List UInt8) : Option Decoder :=
  let (first, rest) := splitLine bytes
  match judgeLine codecs marked first with
  | .unreadable => none
  | .declares decoder => some decoder
  | .silent line =>
    if !isWithoutCode line then some utf8.decode
    else match judgeLine codecs marked (splitLine rest).1 with
      | .unreadable => none
      | .declares decoder => some decoder
      | .silent _ => some utf8.decode

/-- The text of a file, without its mark. -/
def readText? (codecs : Codecs) (bytes : List UInt8) : Option SourceText :=
  let (marked, content) := splitMark bytes
  (ofContent? codecs marked content).bind fun decoder => decoder content

end EnumLookup.Encoding
