import EnumLookup.Generation.Result
import EnumLookup.Program.Host

/-!
Sessions: repeated runs over changing files. Trees of unchanged texts are not parsed again,
and lookup functions of unchanged descriptors are not written again; the results are those
of runs from scratch.
-/
namespace EnumLookup

open Declaration Generation Text

variable [Characters]

/-- The lookup functions written last, with the descriptors they were written for, and how often
such a text was written. -/
structure RenderCache where
  last : Option (List Descriptor × String)
  renders : Nat
  deriving Repr

namespace RenderCache

def empty : RenderCache := ⟨none, 0⟩

def write (descriptors : List Descriptor) (cache : RenderCache) : String × RenderCache :=
  let text := Package.extensionsText descriptors
  (text, ⟨some (descriptors, text), cache.renders + 1⟩)

def render : Renderer RenderCache := fun descriptors cache =>
  match cache.last with
  | some (known, text) => if known = descriptors then (text, cache) else write descriptors cache
  | none => write descriptors cache

end RenderCache

namespace Generation

variable {ν σ τ : Type}

def onFirst {α : Type} (question : σ → α × σ) : σ × τ → α × σ × τ := fun (state, other) =>
  let (answer, state) := question state
  (answer, state, other)

def Host.beside (host : Host ν σ) (τ : Type) : Host ν (σ × τ) where
  key := host.key
  kind := host.kind
  annotationCount := host.annotationCount
  annotationType node index := onFirst (host.annotationType node index)
  declaredType node := onFirst (host.declaredType node)

def Renderer.beside (render : Renderer τ) : Renderer (σ × τ) := fun descriptors (state, own) =>
  let (text, own) := render descriptors own
  (text, state, own)

end Generation

structure Session where
  parses : ParseCache
  rendered : RenderCache
  runs : Nat

namespace Session

def empty : Session := ⟨.empty, .empty, 0⟩

inductive RunError where
  | unencodable (error : EncodeError)
  | invalid (error : DescriptorError)
  deriving DecidableEq, Repr

def RunError.message : RunError → String
  | unencodable error => error.message
  | invalid error => error.message

/-- What a run leaves: its result, the session, what it reported, and how often it looked whether
to stop. -/
structure Run where
  outcome : Except RunError Result
  session : Session
  events : List Event
  polls : Nat

def generate (session : Session) (loaded : Program.Loaded) (cancellation : Cancellation) : Run :=
  let (outcome, progress) :=
    Generation.run (loaded.program.host.beside RenderCache) (Renderer.beside RenderCache.render)
      cancellation loaded.program.declarations (loaded.memo, session.rendered)
  ⟨outcome.mapError .invalid, ⟨loaded.cache, progress.host.2, session.runs + 1⟩,
    loaded.events ++ progress.events, progress.polls⟩

/-- A run over files. Trees of texts that are not among them are dropped first. -/
def run (session : Session) (cancellation : Cancellation) (files : List SourceFile) : Run :=
  match session.parses.retain files with
  | .error error => ⟨.error (.unencodable error), session, [], 0⟩
  | .ok retained =>
    match Program.load .standard retained files with
    | .error error => ⟨.error (.unencodable error), { session with parses := retained }, [], 0⟩
    | .ok loaded => session.generate loaded cancellation

end Session

def runAfresh (cancellation : Cancellation) (files : List SourceFile) :
    Except Session.RunError Result :=
  match Program.load .standard .empty files with
  | .error error => .error (.unencodable error)
  | .ok loaded =>
    (Generation.run loaded.program.host freshRenderer cancellation loaded.program.declarations
      loaded.memo).1.mapError .invalid

end EnumLookup
