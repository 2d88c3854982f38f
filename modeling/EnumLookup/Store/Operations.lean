import EnumLookup.Store.Basic

/-!
Reading and changing a store. An operation that fails leaves the store as it is, but for
`makeDirectories`, which keeps the directories made before it failed.
-/
namespace EnumLookup.Store

/-- An operation may fail, and what it did before is kept. -/
abbrev Effect (ε α : Type) := Store → Except ε α × Store

def read (store : Store) (path : Path) : Except StoreError (List UInt8) :=
  match store.locate path with
  | .error fault => .error ⟨fault, path⟩
  | .ok location =>
    match store.entry? location with
    | some (.file bytes) => .ok bytes
    | some _ => .error ⟨.isDirectory, path⟩
    | none => .error ⟨.missing, path⟩

/-- Writes a file, or makes it, where the path leads; its directory must be there. -/
def write (store : Store) (path : Path) (bytes : List UInt8) : Except StoreError Store :=
  match store.locate path with
  | .error fault => .error ⟨fault, path⟩
  | .ok location =>
    match store.entry? location with
    | some .directory => .error ⟨.isDirectory, path⟩
    | _ => .ok (store.put location (.file bytes))

def create (store : Store) (path : Path) (entry : Entry) : Except StoreError Store :=
  match store.locateEntry path with
  | .error fault => .error ⟨fault, path⟩
  | .ok location =>
    if (store.entry? location).isSome then .error ⟨.alreadyExists, path⟩
    else .ok (store.put location entry)

def makeDirectory (store : Store) (path : Path) : Except StoreError Store :=
  store.create path .directory

def makeLink (store : Store) (path : Path) (target : String) : Except StoreError Store :=
  store.create path (.link target)

/-- Makes a directory; one that is there already will do. -/
def ensureDirectory (path : Path) : Effect StoreError PUnit := fun store =>
  match store.makeDirectory path with
  | .ok made => (.ok ⟨⟩, made)
  | .error error =>
    if error.fault ≠ .missing && store.isDirectory path then (.ok ⟨⟩, store)
    else (.error error, store)

/-- Makes the directory whose components are given from the last one on, and those above it that
are missing. -/
def makeReversed (root : Nat) : List String → Effect StoreError PUnit
  | [] => ensureDirectory ⟨root, []⟩
  | name :: above => fun store =>
    let path : Path := ⟨root, (name :: above).reverse⟩
    match ensureDirectory path store with
    | (.error ⟨.missing, _⟩, store) =>
      match makeReversed root above store with
      | (.ok _, store) => ensureDirectory path store
      | failed => failed
    | outcome => outcome

def makeDirectories (path : Path) : Effect StoreError PUnit :=
  makeReversed path.root path.parts.reverse

def unlink (store : Store) (path : Path) : Except StoreError Store :=
  match store.locateEntry path with
  | .error fault => .error ⟨fault, path⟩
  | .ok location =>
    match store.entry? location with
    | some .directory => .error ⟨.isDirectory, path⟩
    | some _ => .ok (store.erase location)
    | none => .error ⟨.missing, path⟩

def remove (store : Store) (path : Path) : Except StoreError Store :=
  match store.locateEntry path with
  | .error fault => .error ⟨fault, path⟩
  | .ok location =>
    if (store.entry? location).isSome then .ok (store.erase location)
    else .error ⟨.missing, path⟩

def writeWithin (path : Path) (bytes : List UInt8) : Effect StoreError PUnit := fun store =>
  match makeDirectories ⟨path.root, path.parts.dropLast⟩ store with
  | (.error error, store) => (.error error, store)
  | (.ok _, store) =>
    match store.write path bytes with
    | .ok written => (.ok ⟨⟩, written)
    | .error error => (.error error, store)

/-- The names that lead from the top directory to where a path leads, without links and `..`; a path
that leads nowhere stays as it is. -/
def resolved (store : Store) (path : Path) : Path :=
  match store.locate path with
  | .ok location => ⟨0, location⟩
  | .error _ => path

def below (store : Store) (directory : Location) : List (Location × Entry) :=
  store.entries.filterMap fun (location, entry) =>
    if directory.isPrefixOf location && directory.length < location.length then
      some (location.drop directory.length, entry)
    else none

end EnumLookup.Store
