import EnumLookup.Generation.Extraction
import EnumLookup.Generation.Targets
import EnumLookup.Package.Extensions

/-!
A run of the generator over a source set. It always yields the marker unit. The unit of
lookup functions is there when an enum is marked and the run is not cancelled; a
cancelled run yields nothing else.
-/
namespace EnumLookup.Generation

open Package

variable {ν σ : Type}

structure Result where
  units : List GeneratedUnit
  descriptors : List Descriptor
  cancelled : Bool
  deriving DecidableEq, Repr

/-- Writes the unit of lookup functions; it may keep the text for the next run. -/
abbrev Renderer (σ : Type) := List Descriptor → σ → String × σ

def freshRenderer : Renderer σ := fun descriptors state => (extensionsText descriptors, state)

def cancelledResult : Result := ⟨[markerUnit], [], true⟩

def describe (host : Host ν σ) (cancellation : Cancellation) (nodes : List ν) :
    Step σ (List Descriptor) := do
  let targets ← collectTargets host cancellation nodes
  let descriptors ← extract host cancellation targets
  Step.poll cancellation
  pure descriptors

def resultOf (render : Renderer σ) (descriptors : List Descriptor) : Step σ Result :=
  if descriptors.isEmpty then pure ⟨[markerUnit], [], false⟩
  else do
    let text ← Step.ask (render descriptors)
    pure ⟨[markerUnit, ⟨extensionsTag, text⟩], descriptors, false⟩

/-- Turns a cancellation into the result of a cancelled run. -/
def settle (step : Step σ Result) : Step σ Result := fun progress =>
  match step progress with
  | (.error .cancelled, progress) =>
    (.ok cancelledResult, { progress with events := progress.events ++ [.cancelled] })
  | outcome => outcome

def generate (host : Host ν σ) (render : Renderer σ) (cancellation : Cancellation)
    (nodes : List ν) : Step σ Result :=
  settle (do
    let descriptors ← describe host cancellation nodes
    resultOf render descriptors)

def Progress.start (state : σ) : Progress σ := ⟨state, 0, []⟩

/-- A run, and what it left. The only way to fail is a type whose name lies outside its module. -/
def run (host : Host ν σ) (render : Renderer σ) (cancellation : Cancellation) (nodes : List ν)
    (state : σ) : Except DescriptorError Result × Progress σ :=
  match generate host render cancellation nodes (Progress.start state) with
  | (.ok result, progress) => (.ok result, progress)
  | (.error (.invalid error), progress) => (.error error, progress)
  | (.error .cancelled, progress) => (.ok cancelledResult, progress)

end EnumLookup.Generation
