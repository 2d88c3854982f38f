import EnumLookup.Configuration
import EnumLookup.Discovery
import EnumLookup.Package.Summary
import EnumLookup.Session

/-!
What commands work on: the store, what they have printed, what they have reported and how
long they have waited. A command that fails keeps what it did before.
-/
namespace EnumLookup.Command

open Generation Package

variable [Text.Characters]

structure Shell where
  store : Store
  /-- The printed text, piece by piece. -/
  printed : List String
  events : List Event
  /-- The waits between runs, in seconds. -/
  waits : List Binary64

def Shell.start (store : Store) : Shell := ⟨store, [], [], []⟩

def Shell.output (shell : Shell) : String := String.join shell.printed

inductive Failure where
  | store (error : StoreError)
  | run (error : Session.RunError)
  | unknownTag (tag : String)
  /-- A deliberate end with an exit code. -/
  | exit (code : Nat)
  deriving DecidableEq, Repr

def staleCode : Nat := 1
def cancelledCode : Nat := 3

abbrev Action (α : Type) := Shell → Except Failure α × Shell

namespace Action

variable {α β ε : Type}

def pure (a : α) : Action α := fun shell => (.ok a, shell)

def fail (failure : Failure) : Action α := fun shell => (.error failure, shell)

def bind (action : Action α) (next : α → Action β) : Action β := fun shell =>
  match action shell with
  | (.ok a, shell) => next a shell
  | (.error failure, shell) => (.error failure, shell)

instance : Monad Action where
  pure := pure
  bind := bind

def printText (text : String) : Action PUnit := fun shell =>
  (.ok ⟨⟩, { shell with printed := shell.printed ++ [text] })

def printLine (line : String) : Action PUnit := printText (line ++ "\n")

def ofExcept (failure : ε → Failure) (outcome : Except ε α) : Action α := fun shell =>
  (outcome.mapError failure, shell)

end Action

def ofWriteError : WriteError → Failure
  | .unknownTag tag => .unknownTag tag
  | .store error => .store error

def discover (roots : List Path) (exclude : List String) : Action (List SourceFile) :=
  fun shell =>
    let (found, events) := Discovery.discover shell.store roots exclude
    (found.mapError .store, { shell with events := shell.events ++ events })

def runSession (session : Session) (cancellation : Cancellation) (files : List SourceFile) :
    Action (Result × Session) := fun shell =>
  let run := session.run cancellation files
  ((run.outcome.map fun result => (result, run.session)).mapError .run,
    { shell with events := shell.events ++ run.events })

def writePackage (output : Path) (units : List GeneratedUnit) : Action WriteResult :=
  fun shell =>
    let (outcome, store) := writeUnits output units shell.store
    (outcome.mapError ofWriteError, { shell with store })

def runOnce (roots : List Path) (exclude : List String) (cancellation : Cancellation) :
    Action Result := do
  let files ← discover roots exclude
  let (result, _) ← runSession .empty cancellation files
  return result

end EnumLookup.Command
