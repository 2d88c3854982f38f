import EnumLookup.Generation.Host
import EnumLookup.Package.Unit

/-!
Which nodes are to be generated: those that look like an enum, carry a decorator, and
have a decorator that resolves to the marker.
-/
namespace EnumLookup.Generation

variable {ν σ : Type}

/-- A structural test; it asks the host nothing. -/
def isCandidate (host : Host ν σ) (node : ν) : Bool :=
  host.kind node == .enum && 0 < host.annotationCount node

/-- Whether one of the decorators, given by their indices, resolves to the marker. The first
match decides; a decorator without an answer is passed over. -/
def hasMarkerAmong (host : Host ν σ) (node : ν) : List Nat → Step σ Bool
  | [] => pure false
  | index :: rest => do
    match ← Step.ask (host.annotationType node index) with
    | .error error =>
      Step.report (.decoratorUnresolved index (host.key node).name error)
      hasMarkerAmong host node rest
    | .ok resolved =>
      if resolved = some Package.markerFullName then pure true
      else hasMarkerAmong host node rest

def hasMarker (host : Host ν σ) (node : ν) : Step σ Bool :=
  hasMarkerAmong host node (List.range (host.annotationCount node))

def isTarget (host : Host ν σ) (node : ν) : Step σ Bool :=
  if isCandidate host node then hasMarker host node else pure false

def collectTargets (host : Host ν σ) (cancellation : Cancellation) : List ν → Step σ (List ν)
  | [] => pure []
  | node :: rest => do
    Step.poll cancellation
    let chosen ← isTarget host node
    let more ← collectTargets host cancellation rest
    pure (if chosen then node :: more else more)

end EnumLookup.Generation
