import EnumLookup.Cancellation
import EnumLookup.Declaration.Key
import EnumLookup.Declaration.Kind
import EnumLookup.Descriptor
import EnumLookup.Event

/-!
What the generator asks of a source set, and the steps of a run. A host may keep a state
of its own, such as answers found before; a run carries that state, counts its polls and
collects its events.
-/
namespace EnumLookup

structure EnumType where
  qualifiedName : String
  module : String
  members : List Member
  deriving DecidableEq, Repr

namespace EnumType

def constants (type : EnumType) : List String :=
  (type.members.filter (·.isConstant)).map (·.name)

def descriptor (type : EnumType) : Except DescriptorError Descriptor :=
  Descriptor.make type.qualifiedName type.module type.constants

end EnumType

namespace Generation

/-- A source set as the generator sees it: nodes of type `ν`, and questions about them that are
answered in a state of type `σ`. -/
structure Host (ν σ : Type) where
  key : ν → Key
  kind : ν → Kind
  annotationCount : ν → Nat
  /-- The qualified name of what a decorator refers to, by its index. -/
  annotationType : ν → Nat → σ → Except ResolutionError (Option String) × σ
  declaredType : ν → σ → Except ResolutionError (Option EnumType) × σ

structure Progress (σ : Type) where
  host : σ
  polls : Nat
  events : List Event

inductive Stop where
  | cancelled
  | invalid (error : DescriptorError)
  deriving DecidableEq, Repr

/-- A step of a run. What it did before a stop is kept. -/
abbrev Step (σ α : Type) := Progress σ → Except Stop α × Progress σ

namespace Step

variable {σ α β : Type}

def pure (a : α) : Step σ α := fun progress => (.ok a, progress)

def stop (reason : Stop) : Step σ α := fun progress => (.error reason, progress)

def bind (step : Step σ α) (next : α → Step σ β) : Step σ β := fun progress =>
  match step progress with
  | (.ok a, progress) => next a progress
  | (.error reason, progress) => (.error reason, progress)

instance : Monad (Step σ) where
  pure := pure
  bind := bind

def ask (question : σ → α × σ) : Step σ α := fun progress =>
  let (answer, host) := question progress.host
  (.ok answer, { progress with host })

def report (event : Event) : Step σ PUnit := fun progress =>
  (.ok ⟨⟩, { progress with events := progress.events ++ [event] })

def poll (cancellation : Cancellation) : Step σ PUnit := fun progress =>
  (if cancellation progress.polls then .error .cancelled else .ok ⟨⟩,
   { progress with polls := progress.polls + 1 })

end Step

end Generation

end EnumLookup
