import EnumLookup.Package.Unit
import EnumLookup.Store.Operations

/-!
Writing the generated package. A file is written only when its bytes change, and a file
whose unit is no longer generated is removed. Checking tells, without writing, which files
writing would change.
-/
namespace EnumLookup.Package

structure FileStatus where
  label : String
  deriving DecidableEq, Repr

namespace FileStatus

def written : FileStatus := ⟨"written"⟩
def unchanged : FileStatus := ⟨"unchanged"⟩
def removed : FileStatus := ⟨"removed"⟩

end FileStatus

structure FileResult where
  filename : String
  path : Path
  lineCount : Nat
  byteCount : Nat
  status : FileStatus
  deriving DecidableEq, Repr

structure WriteResult where
  outputDirectory : Path
  /-- The files of the units in their order, then the removed ones. -/
  files : List FileResult
  deriving DecidableEq, Repr

namespace WriteResult

def totalLines (result : WriteResult) : Nat := (result.files.map (·.lineCount)).foldl (· + ·) 0

def changed (result : WriteResult) : Bool := result.files.any (·.status ≠ .unchanged)

end WriteResult

inductive WriteError where
  | unknownTag (tag : String)
  | store (error : StoreError)
  deriving DecidableEq, Repr

def WriteError.message : WriteError → String
  | unknownTag tag => "Unknown unit tag: " ++ Text.quoted tag
  | store error => error.message

def packageDirectory (output : Path) : Path := output.child generatedPackage

def unitPath (output : Path) (tag : String) : Path := (packageDirectory output).child tag

def lineCount (text : String) : Nat := text.toList.count '\n'

/-- The units in the order in which they are written, if all tags are known. -/
def orderUnits (units : List GeneratedUnit) : Except WriteError (List GeneratedUnit) :=
  match units.find? fun unit => !unitOrder.contains unit.tag with
  | some unit => .error (.unknownTag unit.tag)
  | none => .ok (unitOrder.flatMap fun tag => units.filter (·.tag = tag))

def holds (store : Store) (path : Path) (bytes : List UInt8) : Bool :=
  match store.find? path with
  | some (.file found) => found == bytes
  | _ => false

def writeChanged (path : Path) (bytes : List UInt8) : Store.Effect StoreError FileStatus :=
  fun store =>
    if holds store path bytes then (.ok .unchanged, store)
    else match store.write path bytes with
      | .ok written => (.ok .written, written)
      | .error error => (.error error, store)

def writeKnown (output : Path) (unit : GeneratedUnit) : Store.Effect StoreError FileResult :=
  fun store =>
    match Store.makeDirectories (packageDirectory output) store with
    | (.error error, store) => (.error error, store)
    | (.ok _, store) =>
      let path := unitPath output unit.tag
      let bytes := utf8 unit.text
      match writeChanged path bytes store with
      | (.error error, store) => (.error error, store)
      | (.ok status, store) =>
        (.ok ⟨unit.tag, store.resolved path, lineCount unit.text, bytes.length, status⟩, store)

def writeUnit (output : Path) (unit : GeneratedUnit) : Store.Effect WriteError FileResult :=
  fun store =>
    if unitOrder.contains unit.tag then
      let (outcome, store) := writeKnown output unit store
      (outcome.mapError .store, store)
    else (.error (.unknownTag unit.tag), store)

def writeAll (output : Path) : List GeneratedUnit → Store.Effect StoreError (List FileResult)
  | [], store => (.ok [], store)
  | unit :: rest, store =>
    match writeKnown output unit store with
    | (.error error, store) => (.error error, store)
    | (.ok file, store) =>
      let (others, store) := writeAll output rest store
      (others.map (file :: ·), store)

/-- Removes the files of the given tags, as far as they are there. -/
def removeStale (output : Path) : List String → Store.Effect StoreError (List FileResult)
  | [], store => (.ok [], store)
  | tag :: rest, store =>
    let path := unitPath output tag
    if store.isFile path then
      match store.unlink path with
      | .error error => (.error error, store)
      | .ok store =>
        let file : FileResult := ⟨tag, store.resolved path, 0, 0, .removed⟩
        let (others, store) := removeStale output rest store
        (others.map (file :: ·), store)
    else removeStale output rest store

def staleTags (units : List GeneratedUnit) : List String :=
  unitOrder.filter fun tag => !units.any (·.tag = tag)

def writeOrdered (output : Path) (units : List GeneratedUnit) :
    Store.Effect StoreError WriteResult := fun store =>
  match writeAll output units store with
  | (.error error, store) => (.error error, store)
  | (.ok written, store) =>
    let (removed, store) := removeStale output (staleTags units) store
    (removed.map fun files => ⟨output, written ++ files⟩, store)

/-- Writes the package. An unknown tag is found before anything is written. -/
def writeUnits (output : Path) (units : List GeneratedUnit) : Store.Effect WriteError WriteResult :=
  fun store =>
    match orderUnits units with
    | .error error => (.error error, store)
    | .ok ordered =>
      let (outcome, store) := writeOrdered output ordered store
      (outcome.mapError .store, store)

/-- Whether the file of a tag is as the units say; of several units with a tag the last counts. -/
def isCurrent (store : Store) (output : Path) (units : List GeneratedUnit) (tag : String) : Bool :=
  let path := unitPath output tag
  match units.reverse.find? (·.tag = tag) with
  | some unit => holds store path (utf8 unit.text)
  | none => !store.isFile path

/-- The tags of the files that are missing, differ or are left over. -/
def checkUnits (store : Store) (output : Path) (units : List GeneratedUnit) :
    Except WriteError (List String) :=
  (orderUnits units).map fun ordered =>
    unitOrder.filter fun tag => !isCurrent store output ordered tag

end EnumLookup.Package
