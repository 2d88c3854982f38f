import EnumLookup.Proofs.Generation.Agreement
import EnumLookup.Proofs.Loading
import EnumLookup.Session

/-!
Sessions against runs from scratch. Between runs a session keeps parse trees and the text written
last. Both stay true of the texts and descriptors they were made from, in cancelled runs too, so
every run of a session ends like a run with nothing remembered.
-/
namespace EnumLookup

open Generation Text

namespace RenderCache

/-- The remembered text is the one that its descriptors have. -/
def Sound (cache : RenderCache) : Prop :=
  ∀ descriptors text, cache.last = some (descriptors, text) →
    text = Package.extensionsText descriptors

theorem empty_sound : empty.Sound := by
  intro descriptors text known
  simp [empty] at known

theorem write_sound (descriptors : List Descriptor) (cache : RenderCache) :
    (write descriptors cache).2.Sound := by
  intro other text known
  obtain ⟨rfl, rfl⟩ := Prod.mk.inj (Option.some.inj known)
  rfl

/-- Rendering gives the text of the descriptors, remembered or not, and keeps what is remembered
true. -/
theorem Sound.render {cache : RenderCache} (sound : cache.Sound) (descriptors : List Descriptor) :
    (RenderCache.render descriptors cache).1 = Package.extensionsText descriptors ∧
      (RenderCache.render descriptors cache).2.Sound := by
  cases last : cache.last with
  | none =>
    simp only [RenderCache.render, last]
    exact ⟨rfl, write_sound descriptors cache⟩
  | some entry =>
    obtain ⟨known, text⟩ := entry
    by_cases same : known = descriptors
    · subst same
      simp only [RenderCache.render, last, if_true]
      exact ⟨sound known text last, sound⟩
    · simp only [RenderCache.render, last, same, if_false]
      exact ⟨rfl, write_sound descriptors cache⟩

end RenderCache

namespace Generation

variable {ν σ : Type}

def BesideSound (wide : σ × RenderCache) (narrow : σ) : Prop := wide.1 = narrow ∧ wide.2.Sound

/-- Answers do not depend on the cache beside the state. -/
theorem Host.beside_agrees (host : Host ν σ) :
    Host.Agrees BesideSound (host.beside RenderCache) host where
  key _ := rfl
  kind _ := rfl
  annotationCount _ := rfl
  annotation := by
    rintro node index ⟨s, cache⟩ _ ⟨rfl, sound⟩
    exact ⟨rfl, rfl, sound⟩
  declared := by
    rintro node ⟨s, cache⟩ _ ⟨rfl, sound⟩
    exact ⟨rfl, rfl, sound⟩

theorem Renderer.beside_agrees :
    Renderer.Agrees BesideSound (Renderer.beside RenderCache.render)
      (freshRenderer : Renderer σ) := by
  rintro descriptors ⟨s, cache⟩ _ ⟨rfl, sound⟩
  obtain ⟨text, still⟩ := sound.render descriptors
  exact ⟨text, rfl, still⟩

end Generation

namespace Session

structure Call where
  cancellation : Cancellation
  files : List SourceFile

def textsOfCalls (calls : List Call) : List String := calls.flatMap fun call => textsOf call.files

section

variable [Characters]

/-- One run for each call, in order; each starts from what the one before it left. -/
def history (session : Session) : List Call → List Run
  | [] => []
  | call :: rest =>
    let first := session.run call.cancellation call.files
    first :: history first.session rest

structure Sound (texts : List String) (session : Session) : Prop where
  parses : session.parses.Faithful texts
  rendered : session.rendered.Sound

theorem empty_sound (texts : List String) : Sound texts empty :=
  ⟨ParseCache.empty_faithful texts, RenderCache.empty_sound⟩

/-- One run ends like a run from scratch, and leaves a sound session. The run may be cancelled at
any poll: the caches are sound after every step. -/
theorem Sound.run {texts : List String} {session : Session} (sound : Sound texts session)
    (separated : Separated texts) (cancellation : Cancellation) {files : List SourceFile}
    (encodable : AllEncodable files) (seen : ∀ text ∈ textsOf files, text ∈ texts) :
    (session.run cancellation files).outcome = runAfresh cancellation files ∧
      Sound texts (session.run cancellation files).session := by
  obtain ⟨retained, retained_ok, retained_faithful⟩ := sound.parses.retain encodable
  obtain ⟨loaded, loaded_ok, program, memo, faithful⟩ :=
    Program.load_ok .standard retained_faithful separated encodable seen
  obtain ⟨fresh, fresh_ok, freshProgram, freshMemo, -⟩ :=
    Program.load_ok .standard (ParseCache.empty_faithful texts) separated encodable seen
  have sameProgram : loaded.program = fresh.program := program.trans freshProgram.symm
  have sameMemo : loaded.memo = fresh.memo := memo.trans freshMemo.symm
  have start : BesideSound (loaded.memo, session.rendered) fresh.memo := ⟨sameMemo, sound.rendered⟩
  obtain ⟨outcome, ⟨-, rendered⟩, -⟩ := run_agree (Host.beside_agrees fresh.program.host)
    Renderer.beside_agrees cancellation fresh.program.declarations start
  simp only [Session.run, retained_ok, loaded_ok, generate, sameProgram, runAfresh, fresh_ok]
  exact ⟨congrArg (Except.mapError RunError.invalid) outcome, faithful, rendered⟩

/-- From a sound session, every run ends like a run from scratch. -/
theorem Sound.history {texts : List String} {session : Session} (sound : Sound texts session)
    (separated : Separated texts) (calls : List Call)
    (encodable : ∀ call ∈ calls, AllEncodable call.files)
    (seen : ∀ text ∈ textsOfCalls calls, text ∈ texts) :
    (session.history calls).map Run.outcome =
      calls.map fun call => runAfresh call.cancellation call.files := by
  induction calls generalizing session with
  | nil => rfl
  | cons call rest ih =>
    obtain ⟨outcome, left⟩ := sound.run separated call.cancellation
      (encodable call (List.mem_cons_self ..))
      fun text member => seen text (List.mem_flatMap.mpr ⟨call, List.mem_cons_self .., member⟩)
    have others := ih left (fun other member => encodable other (List.mem_cons_of_mem _ member))
      fun text member => seen text (by
        obtain ⟨other, inRest, has⟩ := List.mem_flatMap.mp member
        exact List.mem_flatMap.mpr ⟨other, List.mem_cons_of_mem _ inRest, has⟩)
    simp only [Session.history, List.map_cons, outcome, others]

/-- Remembering changes no result: whatever the files of the calls are and wherever runs are
cancelled, each call yields what a run from scratch over its files yields. The texts have UTF-8
forms, and no two of them share a digest. -/
theorem history_outcome (calls : List Call) (encodable : ∀ call ∈ calls, AllEncodable call.files)
    (separated : Separated (textsOfCalls calls)) :
    (empty.history calls).map Run.outcome =
      calls.map fun call => runAfresh call.cancellation call.files :=
  (empty_sound _).history separated calls encodable fun _ member => member

end

/-- A marked enum is edited away in a run cancelled at its third poll, breaks, and comes back. -/
def sampleCalls : List Call :=
  let file (text : String) : SourceFile := ⟨"m.py", "m", false, .ofString text⟩
  let marked := "from enum import Enum\nfrom enum_generators import enum_extensions\n" ++
    "@enum_extensions\nclass C(Enum):\n  A = 1\n"
  [⟨.never, [file marked]⟩, ⟨.afterPolls 2, [file "class C: pass\n"]⟩,
    ⟨.never, [file "class (", file marked]⟩]

theorem history_outcome_sample :
    (∀ call ∈ sampleCalls, AllEncodable call.files) ∧ Separated (textsOfCalls sampleCalls) ∧
      (empty.history sampleCalls).map Run.outcome =
        sampleCalls.map fun call => runAfresh call.cancellation call.files := by
  have encodable : ∀ call ∈ sampleCalls, AllEncodable call.files := by decide +kernel
  have separated : Separated (textsOfCalls sampleCalls) := by decide +kernel
  exact ⟨encodable, separated, history_outcome sampleCalls encodable separated⟩

end Session

end EnumLookup
