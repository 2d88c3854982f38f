import EnumLookup.Encoding.Declared
import EnumLookup.Event
import EnumLookup.Glob
import EnumLookup.SourceFile
import EnumLookup.Store.Operations

/-!
The source files under some roots. Every entry whose name ends like a source file counts,
except excluded ones, those that no import can name, those of the generated package and
those whose text cannot be decoded. Links to directories are not entered. Directories may be
nested to any depth here; a walk by recursion with a limited depth of calls fails on very deep ones.
-/
namespace EnumLookup.Discovery

open Text

def sourceExtension : String := ".py"

def isSourceName (name : String) : Bool := sourceExtension.toList.isSuffixOf name.toList

/-- The paths of the source files below a root, in order. A root that is no directory has none. -/
def sourcePaths (store : Store) (root : Path) : List Path :=
  match store.locate root with
  | .error _ => []
  | .ok location =>
    if store.entry? location = some .directory then
      let relatives := (store.below location).map fun (parts, _) => (⟨0, parts⟩ : Path)
      (relatives.filter fun path => isSourceName path.name).mergeSort Path.le
    else []

/-- What is known of a path before its file is read. -/
inductive Standing where
  | excluded
  | notImportable
  | generated
  | importable (module : String)
  deriving DecidableEq, Repr

def standing (exclude : List String) (relative : Path) : Standing :=
  if exclude.any fun pattern => Glob.accepts pattern relative.text then .excluded
  else match moduleName? relative with
    | .ok (some module) => if isGenerated module then .generated else .importable module
    | _ => .notImportable

def readModule (store : Store) (root relative : Path) (module : String) :
    Except StoreError (List SourceFile × List Event) :=
  let path := root.append relative
  (store.read path).map fun bytes =>
    match Encoding.readText? store.setting.codecs bytes with
    | some text => ([⟨path.text, module, relative.name == packageFile, text⟩], [])
    | none => ([], [.skipped path.text .undecodable])

def visit (store : Store) (exclude : List String) (root relative : Path) :
    Except StoreError (List SourceFile × List Event) :=
  match standing exclude relative with
  | .excluded => .ok ([], [.excluded relative.text])
  | .notImportable => .ok ([], [.notImportable relative.text])
  | .generated => .ok ([], [])
  | .importable module => readModule store root relative module

/-- What was found, or why the search ended, with all that was reported until then. -/
abbrev Found := Except StoreError (List SourceFile) × List Event

def visitAll (store : Store) (exclude : List String) : List (Path × Path) → Found
  | [] => (.ok [], [])
  | (root, relative) :: rest =>
    match visit store exclude root relative with
    | .error error => (.error error, [])
    | .ok (files, events) =>
      let (others, more) := visitAll store exclude rest
      (others.map (files ++ ·), events ++ more)

def candidates (store : Store) (roots : List Path) : List (Path × Path) :=
  roots.flatMap fun root => (sourcePaths store root).map (root, ·)

def discover (store : Store) (roots : List Path) (exclude : List String) : Found :=
  visitAll store exclude (candidates store roots)

end EnumLookup.Discovery
