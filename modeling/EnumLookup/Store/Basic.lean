import EnumLookup.Encoding.Basic
import EnumLookup.Path

/-!
A tree of files as a finite map from locations to entries, with what else a process sees: the
directory it works in and the codecs it knows. A location is the list of names that lead to
an entry from the top directory, and two locations never share a file. A path is followed to
a location through links and `..`: from the top directory when it is absolute, from the
working directory when it is not.
-/
namespace EnumLookup

/-- The names that lead from the top directory to an entry. -/
abbrev Location := List String

inductive Entry where
  | file (bytes : List UInt8)
  | directory
  /-- A link holds a path, which starts at the directory of the link. -/
  | link (target : String)
  deriving DecidableEq, Repr

/-- What a process sees besides the files. -/
structure Setting where
  /-- The working directory. Without it, no relative path leads anywhere. -/
  directory : Location := []
  codecs : Codecs := Encoding.codecs

structure Store where
  entries : List (Location × Entry)
  setting : Setting := {}

inductive Fault where
  | missing
  | alreadyExists
  | notDirectory
  | isDirectory
  | tooManyLinks
  /-- No name holds a zero character. -/
  | zeroCharacter
  deriving DecidableEq, Repr

structure StoreError where
  fault : Fault
  path : Path
  deriving DecidableEq, Repr

def StoreError.message (error : StoreError) : String :=
  let numbered (number text : String) : String :=
    "[Errno " ++ number ++ "] " ++ text ++ ": " ++ Text.quoted error.path.text
  match error.fault with
  | .missing => numbered "2" "No such file or directory"
  | .alreadyExists => numbered "17" "File exists"
  | .notDirectory => numbered "20" "Not a directory"
  | .isDirectory => numbered "21" "Is a directory"
  | .tooManyLinks => numbered "40" "Too many levels of symbolic links"
  | .zeroCharacter => "embedded null byte"

namespace Store

def empty : Store := { entries := [] }

/-- The entry at a location. The top directory is always there. -/
def entry? (store : Store) (location : Location) : Option Entry :=
  if location = [] then some .directory else store.entries.lookup location

def put (store : Store) (location : Location) (entry : Entry) : Store :=
  { store with entries := (location, entry) :: store.entries.filter (·.1 ≠ location) }

/-- Removes an entry, and everything below it. -/
def erase (store : Store) (location : Location) : Store :=
  { store with entries := store.entries.filter fun entry => !location.isPrefixOf entry.1 }

def maxLinks : Nat := 40

/-- Where a path starts that is read in a directory. -/
def startOf (path : Path) (directory : Location) : Location :=
  if path.root = 0 then directory else []

/-- A component that is no name but says where to go on: in the directory above, or where one is. -/
def IsTurn (name : String) : Prop := name = ".." ∨ name = "."

instance (name : String) : Decidable (IsTurn name) := inferInstanceAs (Decidable (_ ∨ _))

def turn (directory : Location) (name : String) : Location :=
  if name = ".." then directory.dropLast else directory

/-- The components of the path that a link holds. What ends with a slash leads to a directory only,
which the dot asks for. -/
def linkParts (target : String) : List String :=
  let last := (Path.splitSlashes target.toList).getLast?
  (Path.ofString target).parts ++ if last = some [] ∨ last = some ['.'] then ["."] else []

/-- Follows components from a directory, given how to go on behind a link. A missing entry is a
location all the same when it is the last one. -/
def followFrom (store : Store) (behindLink : Location → List String → Except Fault Location) :
    Location → List String → Except Fault Location
  | directory, [] => .ok directory
  | directory, name :: rest =>
    if IsTurn name then followFrom store behindLink (turn directory name) rest
    else
      let next := directory ++ [name]
      match store.entry? next with
      | some .directory => followFrom store behindLink next rest
      | some (.file _) => if rest.isEmpty then .ok next else .error .notDirectory
      | some (.link target) =>
        behindLink (startOf (Path.ofString target) directory) (linkParts target ++ rest)
      | none => if rest.isEmpty then .ok next else .error .missing

def follow (store : Store) : Nat → Location → List String → Except Fault Location
  | 0 => store.followFrom fun _ _ => .error .tooManyLinks
  | links + 1 => store.followFrom (follow store links)

def origin (store : Store) (path : Path) : Location := startOf path store.setting.directory

def locate (store : Store) (path : Path) : Except Fault Location :=
  if path.parts.any fun name => name.toList.contains '\x00' then .error .zeroCharacter
  else if store.entry? (store.origin path) ≠ some .directory then .error .missing
  else store.follow maxLinks (store.origin path) path.parts

def find? (store : Store) (path : Path) : Option Entry :=
  match store.locate path with
  | .ok location => store.entry? location
  | .error _ => none

def contains (store : Store) (path : Path) : Bool := (store.find? path).isSome

def isDirectory (store : Store) (path : Path) : Bool := store.find? path == some .directory

def isFile (store : Store) (path : Path) : Bool :=
  match store.find? path with
  | some (.file _) => true
  | _ => false

/-- The location of a path, with links followed on the way but not at its end. -/
def locateEntry (store : Store) (path : Path) : Except Fault Location :=
  match path.parts.getLast? with
  | none => store.locate path
  | some name =>
    if IsTurn name then store.locate path
    else match store.locate ⟨path.root, path.parts.dropLast⟩ with
      | .error fault => .error fault
      | .ok directory =>
        match store.entry? directory with
        | some .directory =>
          if name.toList.contains '\x00' then .error .zeroCharacter else .ok (directory ++ [name])
        | some _ => .error .notDirectory
        | none => .error .missing

end Store

end EnumLookup
