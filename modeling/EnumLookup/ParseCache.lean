import EnumLookup.Event
import EnumLookup.Source.Module
import EnumLookup.SourceFile

/-!
Trees of sources, remembered by the digest of their text. A text without a tree is
remembered too, so it is reported once. Texts that are no longer in use are dropped.
-/
namespace EnumLookup

open Source Text

variable [Characters]

structure ParseCache where
  /-- Digests of texts with their trees, the latest first. -/
  trees : List (String × Option (List Stmt))
  hits : Nat
  misses : Nat

structure Parsed where
  tree : Option (List Stmt)
  cache : ParseCache
  events : List Event

def skipReason : ParseFailure → SkipReason
  | .illFormed => .unparsable
  | .tooDeep => .tooDeepToParse

namespace ParseCache

def empty : ParseCache := ⟨[], 0, 0⟩

def size (cache : ParseCache) : Nat := cache.trees.length

def learn (cache : ParseCache) (path key text : String) : Parsed :=
  let known (tree : Option (List Stmt)) : ParseCache :=
    ⟨(key, tree) :: cache.trees, cache.hits, cache.misses + 1⟩
  match parseModule text.toList with
  | .ok tree => ⟨some tree, known (some tree), []⟩
  | .error failure => ⟨none, known none, [.skipped path (skipReason failure)]⟩

/-- The tree of a file. Only a text with a UTF-8 form has a digest. -/
def parse (cache : ParseCache) (file : SourceFile) : Except EncodeError Parsed :=
  match file.text.encodable with
  | .error error => .error error
  | .ok text =>
    let key := SourceFile.contentKey text
    match cache.trees.lookup key with
    | some tree => .ok ⟨tree, { cache with hits := cache.hits + 1 }, []⟩
    | none => .ok (cache.learn file.path key text)

def contentKeys : List SourceFile → Except EncodeError (List String)
  | [] => .ok []
  | file :: rest =>
    match file.text.encodable with
    | .error error => .error error
    | .ok text => (contentKeys rest).map (SourceFile.contentKey text :: ·)

def retain (cache : ParseCache) (files : List SourceFile) : Except EncodeError ParseCache :=
  (contentKeys files).map fun live =>
    { cache with trees := cache.trees.filter fun entry => live.contains entry.1 }

end ParseCache

end EnumLookup
