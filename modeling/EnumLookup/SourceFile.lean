import EnumLookup.Digest
import EnumLookup.Path
import EnumLookup.Text.Dotted
import EnumLookup.Text.Identifier
import EnumLookup.Text.SourceText

/-!
Source files: where a file was found, the module it defines, and its text. A file
defines a module when every component of its path can be written in an import.
-/
namespace EnumLookup

open Text

/-- One file of a source set. The path includes the root it was found under; a package is
defined by the file `__init__.py` of its directory. -/
structure SourceFile where
  path : String
  module : String
  isPackage : Bool
  text : SourceText
  deriving DecidableEq, Repr

/-- A path without a name cannot name a module. -/
structure NamelessPath where
  path : Path
  deriving DecidableEq, Repr

def NamelessPath.message (error : NamelessPath) : String :=
  "PosixPath(" ++ quoted error.path.text ++ ") has an empty name"

def packageFile : String := "__init__.py"
def packageStem : String := "__init__"

/-- The module defined by components, the last of which stands for its directory when it is the
stem of a package file. -/
def moduleOfParts? (parts : List String) : Option String :=
  let parts := if parts.getLast? = some packageStem then parts.dropLast else parts
  if parts.isEmpty || !parts.all Identifier.isImportable then none
  else some (Dotted.join parts)

def moduleName? (relative : Path) : Except NamelessPath (Option String) :=
  match relative.withoutExtension? with
  | none => .error ⟨relative⟩
  | some path => .ok (moduleOfParts? path.components)

/-- The package that the generator writes, which is never a source. -/
def generatedPackage : String := "enum_generators"

def isGenerated (module : String) : Bool :=
  module == generatedPackage || (generatedPackage ++ ".").toList.isPrefixOf module.toList

def utf8 (text : String) : List UInt8 := text.toUTF8.toList

namespace SourceFile

/-- What identifies a text: the digest of its UTF-8 form. -/
def contentKey (text : String) : String := Digest.sha256Hex (utf8 text)

/-- Path and text, each closed by a zero byte. -/
def frame (file : SourceFile) : Except EncodeError (List UInt8) :=
  file.text.encodable.map fun text => utf8 file.path ++ 0 :: (utf8 text ++ [0])

/-- The bytes that tell source sets apart: the frames of the files in order. -/
def frames : List SourceFile → Except EncodeError (List UInt8)
  | [] => .ok []
  | file :: rest =>
    match file.frame with
    | .error e => .error e
    | .ok bytes => (frames rest).map (bytes ++ ·)

def fingerprint (files : List SourceFile) : Except EncodeError String :=
  (frames files).map Digest.sha256Hex

end SourceFile

end EnumLookup
