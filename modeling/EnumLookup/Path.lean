import EnumLookup.Text.Quoted

/-!
Relative and absolute paths in normal form. Empty and `.` components are dropped, `..` is
kept, since a link may stand before it. Paths are ordered component by component.
-/
namespace EnumLookup

structure Path where
  /-- How many slashes lead: none, one, or the two that some systems tell from one. -/
  root : Nat
  parts : List String
  deriving DecidableEq, Repr, Inhabited

namespace Path

def splitSlashes : List Char → List (List Char)
  | [] => [[]]
  | c :: rest =>
    if c = '/' then [] :: splitSlashes rest
    else match splitSlashes rest with
      | [] => [[c]]
      | part :: parts => (c :: part) :: parts

def leadingSlashes (text : List Char) : Nat :=
  match (text.takeWhile (· == '/')).length with
  | 0 => 0
  | 2 => 2
  | _ => 1

def ofString (text : String) : Path :=
  let parts := (splitSlashes text.toList).map String.ofList
  ⟨leadingSlashes text.toList, parts.filter fun part => part ≠ "" && part ≠ "."⟩

def rootText (path : Path) : String := String.ofList (List.replicate path.root '/')

/-- The path as text; the path without components is `.`. -/
def text (path : Path) : String :=
  if path.root = 0 ∧ path.parts = [] then "."
  else path.rootText ++ String.intercalate "/" path.parts

/-- A path below another one; an absolute path stands for itself. -/
def append (base path : Path) : Path :=
  if path.root = 0 then ⟨base.root, base.parts ++ path.parts⟩ else path

def child (path : Path) (name : String) : Path := ⟨path.root, path.parts ++ [name]⟩

def name (path : Path) : String := path.parts.getLast?.getD ""

/-- What a path is compared by: its root, if it has one, then its components. -/
def components (path : Path) : List String :=
  if path.root = 0 then path.parts else path.rootText :: path.parts

/-- Component lists in lexicographic order, components by code point. -/
def le (a b : Path) : Bool := !b.components.lex a.components

/-- A name without its last extension. A dot that starts or ends the name starts no extension. -/
def stem (name : String) : String :=
  let reversed := name.toList.reverse
  let extension := reversed.takeWhile (· ≠ '.')
  let kept := (reversed.dropWhile (· ≠ '.')).drop 1
  if extension.isEmpty || kept.isEmpty then name else String.ofList kept.reverse

/-- The path with the extension of its name dropped; nothing for a path without a name. -/
def withoutExtension? (path : Path) : Option Path :=
  match path.parts.getLast? with
  | none => none
  | some last => some ⟨path.root, path.parts.dropLast ++ [stem last]⟩

end Path

end EnumLookup
