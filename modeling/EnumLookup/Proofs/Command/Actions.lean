import EnumLookup.Command.Shell
import EnumLookup.Proofs.Generation.Heeding

/-!
Actions that succeed. An action of several steps succeeds when each step does, in the shell that the
one before it left; for each step of a command it is said what it yields and what it leaves.
-/
namespace EnumLookup.Command

open Generation Package

variable {α β : Type} {shell middle after : Shell} {roots : List Path} {exclude : List String}
  {files : List SourceFile} {session : Session} {cancellation : Cancellation} {result : Result}

namespace Action

theorem bind_eq_ok {action : Action α} {next : α → Action β} {b : β} :
    (action >>= next) shell = (.ok b, after) ↔
      ∃ a middle, action shell = (.ok a, middle) ∧ next a middle = (.ok b, after) := by
  change Action.bind action next shell = _ ↔ _
  unfold Action.bind
  rcases action shell with ⟨failure | a, middle⟩
  · simp
  · simp

theorem bind_of_ok {action : Action α} {next : α → Action β} {a : α}
    (ran : action shell = (.ok a, middle)) : (action >>= next) shell = next a middle := by
  change Action.bind action next shell = _
  simp only [Action.bind, ran]

theorem printText_eq (text : String) (shell : Shell) :
    printText text shell = (.ok ⟨⟩, { shell with printed := shell.printed ++ [text] }) := rfl

theorem mapError_eq_ok {ε ε' : Type} {failure : ε → ε'} {outcome : Except ε α} {a : α} :
    outcome.mapError failure = .ok a ↔ outcome = .ok a := by
  cases outcome <;> simp [Except.mapError]

theorem ofExcept_eq_ok {ε : Type} {failure : ε → Failure} {outcome : Except ε α} {a : α} :
    ofExcept failure outcome shell = (.ok a, after) ↔ outcome = .ok a ∧ after = shell := by
  simp only [ofExcept, Prod.mk.injEq, mapError_eq_ok, eq_comm (a := shell)]

end Action

open EnumLookup.Command.Action

theorem discover_eq_ok : discover roots exclude shell = (.ok files, after) ↔
    (Discovery.discover shell.store roots exclude).1 = .ok files ∧
      after = { shell with
        events := shell.events ++ (Discovery.discover shell.store roots exclude).2 } := by
  simp only [discover, Prod.mk.injEq, mapError_eq_ok, eq_comm (b := after)]

theorem runSession_eq_ok [Text.Characters] {next : Session} :
    runSession session cancellation files shell = (.ok (result, next), after) ↔
      (session.run cancellation files).outcome = .ok result ∧
        next = (session.run cancellation files).session ∧
        after = { shell with
          events := shell.events ++ (session.run cancellation files).events } := by
  simp only [runSession, Prod.mk.injEq, mapError_eq_ok]
  cases (session.run cancellation files).outcome with
  | error error => simp [Except.map]
  | ok other => simp [Except.map, eq_comm, and_assoc]

theorem writePackage_eq_ok {output : Path} {units : List GeneratedUnit} {written : WriteResult} :
    writePackage output units shell = (.ok written, after) ↔
      ∃ store, writeUnits output units shell.store = (.ok written, store) ∧
        after = { shell with store } := by
  simp only [writePackage]
  rcases writeUnits output units shell.store with ⟨outcome, store⟩
  simp only [Prod.mk.injEq, mapError_eq_ok]
  constructor
  · rintro ⟨ran, rfl⟩
    exact ⟨store, ⟨ran, rfl⟩, rfl⟩
  · rintro ⟨_, ⟨ran, rfl⟩, rfl⟩
    exact ⟨ran, rfl⟩

/-- A single run finds the files and yields what a session that remembers nothing makes of them. -/
theorem runOnce_eq_ok [Text.Characters] :
    runOnce roots exclude cancellation shell = (.ok result, after) ↔
    ∃ files, (Discovery.discover shell.store roots exclude).1 = .ok files ∧
      (Session.empty.run cancellation files).outcome = .ok result ∧
      after = { shell with events := shell.events ++
        (Discovery.discover shell.store roots exclude).2 ++
        (Session.empty.run cancellation files).events } := by
  unfold runOnce
  simp only [bind_eq_ok, discover_eq_ok]
  constructor
  · rintro ⟨files, _, ⟨found, rfl⟩, ⟨_, session⟩, _, ran, ended⟩
    obtain ⟨outcome, -, rfl⟩ := runSession_eq_ok.mp ran
    cases ended
    exact ⟨files, found, outcome, rfl⟩
  · rintro ⟨files, found, outcome, rfl⟩
    exact ⟨files, _, ⟨found, rfl⟩, _, _, runSession_eq_ok.mpr ⟨outcome, rfl, rfl⟩, rfl⟩

end EnumLookup.Command

namespace EnumLookup.Session

open Generation Command.Action

variable {session : Session} {cancellation : Cancellation} {files : List SourceFile}
  {result : Result}

theorem generate_outcome (session : Session) (loaded : Program.Loaded)
    (cancellation : Cancellation) : (session.generate loaded cancellation).outcome =
      (Generation.run (loaded.program.host.beside RenderCache)
        (Renderer.beside RenderCache.render) cancellation loaded.program.declarations
        (loaded.memo, session.rendered)).1.mapError .invalid := rfl

theorem run_generates [Text.Characters]
    (ran : (session.run cancellation files).outcome = .ok result) :
    ∃ loaded, ∀ other, session.run other files = session.generate loaded other := by
  unfold run at ran
  split at ran
  · cases ran
  · next retained kept =>
    split at ran
    · cases ran
    · next loaded loads => exact ⟨loaded, fun other => by simp only [run, kept, loads]⟩

theorem run_units [Text.Characters] (ran : (session.run cancellation files).outcome = .ok result) :
    result.units ≠ [] := by
  obtain ⟨loaded, runs⟩ := run_generates ran
  rw [runs, generate_outcome, mapError_eq_ok] at ran
  obtain ⟨rest, units⟩ := Generation.run_units ran
  rw [units]
  exact List.cons_ne_nil _ _

/-- A run of a session that is not cancelled goes as if nobody cancelled it. -/
theorem run_uncancelled [Text.Characters]
    (ran : (session.run cancellation files).outcome = .ok result)
    (uncancelled : result.cancelled = false) :
    session.run .never files = session.run cancellation files := by
  obtain ⟨loaded, runs⟩ := run_generates ran
  rw [runs, generate_outcome, mapError_eq_ok] at ran
  have same := Generation.run_uncancelled ran uncancelled
  rw [runs, runs]
  simp only [generate, same]

end EnumLookup.Session
