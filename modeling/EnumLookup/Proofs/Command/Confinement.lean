import EnumLookup.Command.Execute
import EnumLookup.Proofs.Command.Actions
import EnumLookup.Proofs.Package.Confinement

/-!
What a call can change. Reading, checking and listing leave the store as it is; generating, and
every cycle of a watch, changes no more than a write of the package does. Between two cycles others
may change the store as well.
-/
namespace EnumLookup.Command

open EnumLookup.Command.Action CommandLine Generation Package Store

variable {α β : Type} {output : Path} {shell after : Shell}

/-- Whatever the action comes to, it leaves the store as it is. -/
def Spares (action : Action α) : Prop := ∀ shell, (action shell).2.store = shell.store

namespace Spares

variable {action : Action α} {next : α → Action β}

theorem pure (a : α) : Spares (Pure.pure a : Action α) := fun _ => rfl

theorem fail (failure : Failure) : Spares (Action.fail failure : Action α) := fun _ => rfl

theorem printText (text : String) : Spares (Action.printText text) := fun _ => rfl

theorem bind (first : Spares action) (rest : ∀ a, Spares (next a)) : Spares (action >>= next) := by
  intro shell
  have kept := first shell
  change (Action.bind action next shell).2.store = shell.store
  unfold Action.bind
  revert kept
  rcases action shell with ⟨failure | a, middle⟩
  · exact id
  · exact (rest a middle).trans

/-- What follows an action and leaves the store as it is does not change what the action left. -/
theorem store_bind (rest : ∀ a, Spares (next a)) (shell : Shell) :
    ((action >>= next) shell).2.store = (action shell).2.store := by
  change (Action.bind action next shell).2.store = _
  unfold Action.bind
  rcases action shell with ⟨failure | a, middle⟩
  · rfl
  · exact rest a middle

theorem discover (roots : List Path) (exclude : List String) :
    Spares (Command.discover roots exclude) := fun _ => rfl

theorem runSession [Text.Characters] (session : Session) (cancellation : Cancellation)
    (files : List SourceFile) :
    Spares (Command.runSession session cancellation files) := fun _ => rfl

theorem runOnce [Text.Characters] (roots : List Path) (exclude : List String)
    (cancellation : Cancellation) :
    Spares (Command.runOnce roots exclude cancellation) :=
  (discover roots exclude).bind fun files =>
    (runSession .empty cancellation files).bind fun _ => pure _

theorem list [Text.Characters] (config : DiscoveryConfig) : Spares (Command.list config) :=
  (runOnce _ _ _).bind fun _ => printText _

theorem check [Text.Characters] (config : GenerateConfig) (clock : Cancellation.Clock) :
    Spares (Command.check config clock) := by
  refine (runOnce _ _ _).bind fun result => ?_
  split
  · exact (printText _).bind fun _ => fail _
  · refine Spares.bind (fun _ => rfl) fun outOfDate => ?_
    dsimp only
    split
    · exact printText _
    · exact (printText _).bind fun _ => (printText _).bind fun _ =>
        (printText _).bind fun _ => fail _

end Spares

/-- From a disk the changes of the action are confined. When it yields something, this has the
property, and the changes settle. -/
def Contained (output : Path) (action : Action α) (yields : α → Prop) : Prop :=
  ∀ shell, shell.store.IsDisk → Confined output shell.store (action shell).2.store ∧
    ∀ a, (action shell).1 = .ok a →
      yields a ∧ Settled output shell.store (action shell).2.store

theorem Spares.contained {action : Action α} (spares : Spares action) {yields : α → Prop}
    (yielded : ∀ shell a, (action shell).1 = .ok a → yields a) :
    Contained output action yields := by
  intro shell disk
  rw [spares shell]
  exact ⟨Confined.refl output _, fun a ok => ⟨yielded shell a ok, Settled.refl disk output⟩⟩

namespace Contained

variable {action : Action α} {next : α → Action β} {yields : α → Prop} {yieldsNext : β → Prop}

theorem bind (first : Contained output action yields)
    (rest : ∀ a, yields a → Contained output (next a) yieldsNext) :
    Contained output (action >>= next) yieldsNext := by
  intro shell disk
  have before := first shell disk
  change Confined output shell.store (Action.bind action next shell).2.store ∧
    ∀ b, (Action.bind action next shell).1 = .ok b →
      yieldsNext b ∧ Settled output shell.store (Action.bind action next shell).2.store
  unfold Action.bind
  revert before
  rcases action shell with ⟨failure | a, middle⟩
  · exact fun before => ⟨before.1, nofun⟩
  · intro before
    obtain ⟨holds, settled⟩ := before.2 a rfl
    obtain ⟨confined, settles⟩ := rest a holds middle settled.disk
    refine ⟨settled.confined confined, fun b ok => ?_⟩
    obtain ⟨holdsNext, last⟩ := settles b ok
    exact ⟨holdsNext, settled.trans last⟩

theorem writePackage {units : List GeneratedUnit} (nonempty : units ≠ []) :
    Contained output (Command.writePackage output units) fun _ => True := by
  intro shell disk
  obtain ⟨confined, settles⟩ := writeUnits_confined output disk nonempty
  refine ⟨confined, fun written ok => ⟨trivial, settles written ?_⟩⟩
  exact mapError_eq_ok.mp ok

/-- A run yields units to write. -/
theorem runSession [Text.Characters] (session : Session) (cancellation : Cancellation)
    (files : List SourceFile) :
    Contained output (Command.runSession session cancellation files)
      fun ran => ran.1.units ≠ [] := by
  refine (Spares.runSession session cancellation files).contained fun shell ran ok => ?_
  have whole : Command.runSession session cancellation files shell =
      (.ok (ran.1, ran.2), (Command.runSession session cancellation files shell).2) :=
    Prod.ext ok rfl
  exact Session.run_units (runSession_eq_ok.mp whole).1

theorem runOnce [Text.Characters] (roots : List Path) (exclude : List String)
    (cancellation : Cancellation) :
    Contained output (Command.runOnce roots exclude cancellation) fun result =>
      result.units ≠ [] :=
  ((Spares.discover roots exclude).contained fun _ _ _ => trivial).bind fun files _ =>
    (runSession .empty cancellation files).bind fun ran nonempty =>
      (Spares.pure ran.1).contained fun _ _ ok => Except.ok.inj ok ▸ nonempty

theorem printText (text : String) : Contained output (Action.printText text) fun _ => True :=
  (Spares.printText text).contained fun _ _ _ => trivial

theorem pure (a : α) : Contained output (Pure.pure a : Action α) fun _ => True :=
  (Spares.pure a).contained fun _ _ _ => trivial

theorem generate [Text.Characters] (config : GenerateConfig) (clock : Cancellation.Clock) :
    Contained config.outputDir (Command.generate config clock) fun _ => True := by
  refine (printText _).bind fun _ _ => (runOnce _ _ _).bind fun result nonempty => ?_
  split
  · exact (printText _).bind fun _ _ => (Spares.fail _).contained fun _ _ _ => trivial
  · exact (printText _).bind fun _ _ => (writePackage nonempty).bind fun _ _ =>
      (printText _).bind fun _ _ => pure _

theorem watchCycle [Text.Characters] (config : GenerateConfig) (cycle : Cycle)
    (state : WatchState) :
    Contained config.outputDir (Command.watchCycle config cycle state) fun _ => True := by
  have regenerates (state : WatchState) (files : List SourceFile) (current : String) :
      Contained config.outputDir (regenerate config cycle state files current) fun _ => True := by
    refine (runSession _ _ _).bind fun ran nonempty => ?_
    dsimp only
    split
    · exact (printText _).bind fun _ _ => pure _
    · exact (writePackage nonempty).bind fun _ _ => (printText _).bind fun _ _ => pure _
  refine ((Spares.discover _ _).contained fun _ _ _ => trivial).bind fun files _ => ?_
  have digest : Spares (Action.ofExcept (fun error => Failure.run (.unencodable error))
      (SourceFile.fingerprint files)) := fun _ => rfl
  refine (digest.contained fun _ _ _ => trivial).bind fun current _ => ?_
  split
  · exact pure _
  · exact regenerates _ _ _

end Contained

/-- The way of a store through a call: a confined change or, where others change the store in
between, one such change after another. -/
inductive Passes (output : Path) : List (Store → Store) → Store → Store → Prop
  | ends {changes : List (Store → Store)} {store after : Store}
    (confined : Confined output store after) : Passes output changes store after
  | waits {change : Store → Store} {changes : List (Store → Store)} {store reached after : Store}
    (settled : Settled output store reached)
    (rest : Passes output changes (change reached) after) :
    Passes output (change :: changes) store after

/-- While nobody else changes the store, the whole call is confined. -/
theorem Passes.confined {changes : List (Store → Store)} {store after : Store}
    (passes : Passes output changes store after) (unchanged : ∀ change ∈ changes, change = id) :
    Confined output store after := by
  induction passes with
  | ends confined => exact confined
  | waits settled _ ih =>
    obtain ⟨same, others⟩ := List.forall_mem_cons.mp unchanged
    rw [same] at ih
    exact settled.confined (ih others)

section

variable [Text.Characters]
variable {config : GenerateConfig} {clock : Cancellation.Clock} {maxCycles : Option Nat}
  {cycles : List Cycle} {cycle : Cycle} {state : WatchState}

/-- A cycle fails, or watching ends with it, or there is a wait in which others change the store. -/
theorem watchOnce_cases (config : GenerateConfig) (cycle : Cycle) (state : WatchState)
    (shell : Shell) :
    (∃ failure, watchOnce config cycle state shell =
      (.error failure, (watchCycle config cycle state shell).2)) ∨
    (∃ next, watchOnce config cycle state shell =
      (.ok (next, false), (watchCycle config cycle state shell).2)) ∨
    ∃ next goesOn after, (watchCycle config cycle state shell).1 = .ok next ∧
      watchOnce config cycle state shell = (.ok (next, goesOn), after) ∧
      after.store = cycle.change (watchCycle config cycle state shell).2.store := by
  rcases ended : watchCycle config cycle state shell with ⟨failure | next, left⟩
  · refine .inl ⟨failure, ?_⟩
    change Action.bind _ _ shell = _
    simp only [Action.bind, ended]
  · unfold watchOnce
    rw [bind_of_ok ended]
    split
    · exact .inr (.inl ⟨next, rfl⟩)
    · exact .inr (.inr ⟨next, _, _, rfl, rfl, rfl⟩)

theorem watchCycles_passes (state : WatchState) (shell : Shell) (disk : shell.store.IsDisk)
    (others : ∀ cycle ∈ cycles, ∀ store : Store, store.IsDisk → (cycle.change store).IsDisk) :
    Passes config.outputDir (cycles.map (·.change)) shell.store
      (watchCycles config clock maxCycles cycles state shell).2.store := by
  induction cycles generalizing state shell with
  | nil =>
    obtain ⟨confined, -⟩ := Contained.watchCycle config (.last clock) state shell disk
    unfold watchCycles
    split
    · exact .ends (Confined.refl _ _)
    · refine .ends ?_
      have ends (ran : WatchState × Bool) : Spares (Pure.pure ran.1 : Action WatchState) :=
        Spares.pure ran.1
      rw [Spares.store_bind ends]
      rcases watchOnce_cases config (.last clock) state shell with
        ⟨failure, same⟩ | ⟨next, same⟩ | ⟨next, goesOn, after, -, same, left⟩
      · rw [same]
        exact confined
      · rw [same]
        exact confined
      · rw [same]
        exact left ▸ confined
  | cons cycle rest ih =>
    obtain ⟨confined, settles⟩ := Contained.watchCycle config cycle state shell disk
    obtain ⟨own, others⟩ := List.forall_mem_cons.mp others
    unfold watchCycles
    split
    · exact .ends (Confined.refl _ _)
    · change Passes _ _ _ (Action.bind _ _ shell).2.store
      unfold Action.bind
      rcases watchOnce_cases config cycle state shell with
        ⟨failure, same⟩ | ⟨next, same⟩ | ⟨next, goesOn, after, ok, same, left⟩
      · rw [same]
        exact .ends confined
      · rw [same]
        exact .ends confined
      · rw [same]
        obtain ⟨-, settled⟩ := settles next ok
        have nextDisk : after.store.IsDisk := left ▸ own _ settled.disk
        refine .waits settled ?_
        change Passes _ _ (cycle.change _) _
        rw [← left]
        cases goesOn with
        | false => exact .ends (Confined.refl _ _)
        | true => exact ih _ _ nextDisk others

theorem watch_passes (shell : Shell) (disk : shell.store.IsDisk)
    (others : ∀ cycle ∈ cycles, ∀ store : Store, store.IsDisk → (cycle.change store).IsDisk) :
    Passes config.outputDir (cycles.map (·.change)) shell.store
      (watch config clock maxCycles cycles shell).2.store := by
  unfold watch
  rw [bind_of_ok (printText_eq _ _)]
  have ends (state : WatchState) : Spares (printLine "Stopped watching." >>= fun _ =>
      (Pure.pure state.writes : Action Nat)) := (Spares.printText _).bind fun _ => Spares.pure _
  rw [Spares.store_bind ends]
  exact watchCycles_passes .start { shell with printed := shell.printed ++ [watchTitle config] }
    disk others

/-- The run of a generation is cancelled by its time limit. -/
def Cancels (config : GenerateConfig) (clock : Cancellation.Clock) (store : Store) : Prop :=
  ∃ files result,
    (Discovery.discover store config.sourceRoots config.exclude).1 = .ok files ∧
    (Session.empty.run (.ofTimeout clock config.timeout) files).outcome = .ok result ∧
    result.cancelled = true

theorem runOnce_no_exit {roots : List Path} {exclude : List String} {cancellation : Cancellation}
    {code : Nat} : (runOnce roots exclude cancellation shell).1 ≠ .error (.exit code) := by
  change (Action.bind _ _ _).1 ≠ _
  simp only [Action.bind, discover]
  cases (Discovery.discover shell.store roots exclude).1 with
  | error error => rintro ⟨⟩
  | ok files =>
    change (Action.bind _ _ _).1 ≠ _
    simp only [Action.bind, runSession]
    cases (Session.empty.run cancellation files).outcome <;> rintro ⟨⟩

/-- A generation that is cancelled says so by its exit code, and has changed nothing. -/
theorem generate_of_cancels (shell : Shell) (cancels : Cancels config clock shell.store) :
    ∃ after, generate config clock shell = (.error (.exit cancelledCode), after) ∧
      after.store = shell.store := by
  obtain ⟨files, result, found, outcome, cancelled⟩ := cancels
  have ran (printed : List String) : ∃ middle, runOnce config.sourceRoots config.exclude
      (.ofTimeout clock config.timeout) { shell with printed } = (.ok result, middle) ∧
        middle.store = shell.store :=
    ⟨_, runOnce_eq_ok.mpr ⟨files, found, outcome, rfl⟩, rfl⟩
  unfold generate
  rw [printLine, bind_of_ok (printText_eq _ _)]
  obtain ⟨middle, ran, kept⟩ := ran (shell.printed ++ [_])
  rw [bind_of_ok ran, if_pos cancelled]
  exact ⟨_, rfl, kept⟩

/-- Only a cancelled generation ends with an exit code of its own. -/
theorem generate_exits {code : Nat}
    (ended : (generate config clock shell).1 = .error (.exit code)) :
    Cancels config clock shell.store := by
  revert ended
  unfold generate
  rw [printLine, bind_of_ok (printText_eq _ _)]
  change (Action.bind _ _ _).1 = _ → _
  unfold Action.bind
  split
  · next result middle ran =>
    obtain ⟨files, found, outcome, rfl⟩ := runOnce_eq_ok.mp ran
    by_cases cancelled : result.cancelled = true
    · exact fun _ => ⟨files, result, found, outcome, cancelled⟩
    · dsimp only
      rw [if_neg cancelled, printLine, bind_of_ok (printText_eq _ _)]
      change (Action.bind _ _ _).1 = _ → _
      simp only [Action.bind, writePackage]
      rcases (writeUnits config.outputDir result.units _).1 with error | written
      · cases error <;> rintro ⟨⟩
      · rintro ⟨⟩
  · next failure middle ran =>
    rintro ⟨⟩
    exact absurd (congrArg Prod.fst ran) runOnce_no_exit

end

/-! The whole call. -/

theorem ofArguments_ok {store : Store} {parsed : Arguments} {config : Config}
    (ok : Config.ofArguments store parsed = .ok config) :
    (∃ listing, config = .discovery listing) ∨
      parsed.list = false ∧ ∃ own, config = .generate own ∧ own.outputDir = parsed.outputDir ∧
        own.mode = Config.modeOf parsed := by
  unfold Config.ofArguments at ok
  simp only [Bind.bind, Except.bind, Pure.pure, Except.pure] at ok
  split at ok
  · cases ok
  split at ok
  · cases ok
  split at ok
  · cases ok
  split at ok
  · cases ok
  cases asked : parsed.list with
  | true =>
    rw [asked] at ok
    exact .inl ⟨_, (Except.ok.inj ok).symm⟩
  | false =>
    rw [asked] at ok
    exact .inr ⟨rfl, _, (Except.ok.inj ok).symm, rfl, rfl⟩

theorem watch_of_modeOf {parsed : Arguments} (watches : Config.modeOf parsed = .watch) :
    parsed.watch = true := by
  by_contra off
  rw [Config.modeOf, if_neg off] at watches
  split at watches <;> cases watches

theorem runConfig_store [Text.Characters] (clock : Cancellation.Clock) (cycles : List Cycle)
    (config : Config) (store : Store) : (runConfig clock cycles config store).store =
      (perform clock cycles config (.start store)).2.store := rfl

/-- Only a deliberate end has the exit code of a cancelled run. -/
theorem exitCode_eq_cancelled [Text.Characters] {clock : Cancellation.Clock} {cycles : List Cycle}
    {config : Config}
    {store : Store} : (runConfig clock cycles config store).exitCode = cancelledCode ↔
      (perform clock cycles config (.start store)).1 = .error (.exit cancelledCode) := by
  unfold runConfig
  rcases perform clock cycles config (.start store) with ⟨failure | done, shell⟩
  · cases failure with
    | exit code =>
      constructor
      · rintro (rfl : code = cancelledCode)
        rfl
      · rintro ⟨⟩
        rfl
    | store error => exact iff_of_false (by decide : 1 ≠ cancelledCode) (by rintro ⟨⟩)
    | run error => exact iff_of_false (by decide : 1 ≠ cancelledCode) (by rintro ⟨⟩)
    | unknownTag tag => exact iff_of_false (by decide : 1 ≠ cancelledCode) (by rintro ⟨⟩)
  · exact iff_of_false (by decide : 0 ≠ cancelledCode) (by rintro ⟨⟩)

section

variable [Text.Characters]
variable {clock : Cancellation.Clock} {cycles : List Cycle} {config : GenerateConfig}
  {store : Store}

theorem perform_check (mode : config.mode = .check) :
    (perform clock cycles (.generate config) (.start store)).2.store = store := by
  simp only [perform, mode]
  exact Spares.check config clock (.start store)

/-- The command ends as generating does, and leaves what it leaves. -/
theorem perform_generate (mode : config.mode = .generate) :
    perform clock cycles (.generate config) (.start store) =
      ((generate config clock (.start store)).1.map fun _ => ⟨⟩,
        (generate config clock (.start store)).2) := by
  simp only [perform, mode]
  change Action.bind _ _ _ = _
  unfold Action.bind
  rcases generate config clock (.start store) with ⟨failure | written, after⟩ <;> rfl

theorem perform_confined (disk : store.IsDisk) (mode : config.mode ≠ .watch) :
    Confined config.outputDir store
      (perform clock cycles (.generate config) (.start store)).2.store := by
  cases asked : config.mode with
  | check => exact perform_check asked ▸ Confined.refl _ _
  | watch => exact absurd asked mode
  | generate =>
    rw [perform_generate asked]
    exact (Contained.generate config clock (.start store) disk).1

theorem perform_passes (clock : Cancellation.Clock) (config : GenerateConfig)
    (disk : store.IsDisk)
    (others : ∀ cycle ∈ cycles, ∀ store : Store, store.IsDisk → (cycle.change store).IsDisk) :
    Passes config.outputDir (cycles.map (·.change)) store
      (perform clock cycles (.generate config) (.start store)).2.store := by
  by_cases asked : config.mode = .watch
  · simp only [perform, asked]
    rw [Spares.store_bind fun _ => Spares.pure _]
    exact watch_passes (.start store) disk others
  · exact .ends (perform_confined disk asked)

/-- While nobody else changes the store, every command that can write is confined. -/
theorem perform_alone (disk : store.IsDisk)
    (alone : config.mode = .watch → ∀ cycle ∈ cycles, cycle.change = id) :
    Confined config.outputDir store
      (perform clock cycles (.generate config) (.start store)).2.store := by
  by_cases asked : config.mode = .watch
  · have others : ∀ cycle ∈ cycles, ∀ store : Store, store.IsDisk → (cycle.change store).IsDisk :=
      fun cycle member store disk => by rwa [alone asked cycle member]
    refine (perform_passes clock config disk others).confined fun change member => ?_
    obtain ⟨cycle, inCycles, rfl⟩ := List.mem_map.mp member
    exact alone asked cycle inCycles
  · exact perform_confined disk asked

theorem perform_cancelled (mode : config.mode = .generate) :
    (runConfig clock cycles (.generate config) store).exitCode = cancelledCode ↔
      Cancels config clock store := by
  rw [exitCode_eq_cancelled, perform_generate mode]
  constructor
  · intro failed
    have ended : (generate config clock (.start store)).1 = .error (.exit cancelledCode) := by
      revert failed
      rcases (generate config clock (.start store)).1 with failure | written
      · exact fun same => congrArg _ (Except.error.inj same)
      · rintro ⟨⟩
    exact generate_exits ended
  · intro cancels
    obtain ⟨after, ran, -⟩ := generate_of_cancels (.start store) cancels
    rw [ran]
    rfl

theorem execute_unread {arguments : List String}
    (unread : ∀ parsed, request arguments ≠ .ok (.run parsed)) :
    (execute arguments clock cycles store).store = store := by
  cases asked : request arguments with
  | error error => simp only [execute, asked, printOnly]
  | ok wanted =>
    cases wanted with
    | help => simp only [execute, asked, printOnly]
    | run parsed => exact absurd asked (unread parsed)

theorem execute_wrong {arguments : List String} {parsed : Arguments} {error : ConfigError}
    (read : request arguments = .ok (.run parsed))
    (wrong : Config.ofArguments store parsed = .error error) :
    (execute arguments clock cycles store).store = store := by
  simp only [execute, read, wrong, printOnly]

theorem execute_runs {arguments : List String} {parsed : Arguments} {config : Config}
    (read : request arguments = .ok (.run parsed))
    (configured : Config.ofArguments store parsed = .ok config) :
    execute arguments clock cycles store = runConfig clock cycles config store := by
  simp only [execute, read, configured]

/-- A call changes nothing but the places of the package and directories made on the way to it,
apart from what others do while it watches. It changes nothing at all when its arguments cannot be
read or are wrong, when it lists or checks, and when it generates and is cancelled, which its exit
code tells. -/
theorem execute_confined (clock : Cancellation.Clock) (cycles : List Cycle)
    (arguments : List String) (disk : store.IsDisk)
    (others : ∀ cycle ∈ cycles, ∀ store : Store, store.IsDisk → (cycle.change store).IsDisk) :
    let execution := execute arguments clock cycles store
    ((∀ parsed, request arguments ≠ .ok (.run parsed)) → execution.store = store) ∧
    ∀ parsed, request arguments = .ok (.run parsed) →
      Passes parsed.outputDir (cycles.map (·.change)) store execution.store ∧
      ((parsed.watch = true → ∀ cycle ∈ cycles, cycle.change = id) →
        Confined parsed.outputDir store execution.store) ∧
      ((∃ error, Config.ofArguments store parsed = .error error) → execution.store = store) ∧
      (parsed.list = true ∨ parsed.check = true → execution.store = store) ∧
      ∀ own, Config.ofArguments store parsed = .ok (.generate own) → own.mode = .generate →
        (execution.exitCode = cancelledCode ↔ Cancels own clock store) ∧
        (Cancels own clock store → execution.store = store) := by
  refine ⟨execute_unread, fun parsed read => ?_⟩
  cases configured : Config.ofArguments store parsed with
  | error error =>
    rw [execute_wrong read configured]
    exact ⟨.ends (Confined.refl _ _), fun _ => Confined.refl _ _, fun _ => rfl, fun _ => rfl,
      nofun⟩
  | ok config =>
    rw [execute_runs read configured, runConfig_store]
    rcases ofArguments_ok configured with ⟨listing, rfl⟩ | ⟨unlisted, own, rfl, output, mode⟩
    · have same : (perform clock cycles (.discovery listing) (.start store)).2.store = store :=
        Spares.list listing (.start store)
      rw [same]
      exact ⟨.ends (Confined.refl _ _), fun _ => Confined.refl _ _, nofun, fun _ => rfl, nofun⟩
    · rw [← output]
      refine ⟨perform_passes clock own disk others, fun alone => ?_, nofun, fun spares => ?_, ?_⟩
      · exact perform_alone disk fun watches => alone (watch_of_modeOf (mode.symm.trans watches))
      · have checks := spares.resolve_left (by simp [unlisted])
        exact perform_check (mode.trans (if_pos checks))
      · rintro _ ⟨⟩ generates
        refine ⟨perform_cancelled generates, fun cancels => ?_⟩
        obtain ⟨after, stopped, kept⟩ := generate_of_cancels (.start store) cancels
        rw [perform_generate generates, stopped]
        exact kept

end

/-- An empty source directory and, next to it, a package whose first file is a link to a file
outside. -/
def outwardStore : Store where
  entries :=
    [(["src"], .directory), (["note.txt"], .file []), (["out"], .directory),
     (["out", generatedPackage], .directory),
     (["out", generatedPackage, markerTag], .link "../../note.txt")]

/-- A watch that others let run for one wait. -/
theorem execute_confined_watching :
    let arguments := ["--source-root", "src", "--output-dir", "out", "--watch"]
    let cycle : Cycle := ⟨Cancellation.steadyClock, none, id, false⟩
    outwardStore.IsDisk ∧ Confined ⟨0, ["out"]⟩ outwardStore
      (execute arguments Cancellation.steadyClock [cycle] outwardStore).store := by
  intro arguments cycle
  have disk : outwardStore.IsDisk := by decide +kernel
  have read : request arguments = .ok (.run ⟨[⟨0, ["src"]⟩], ⟨0, ["out"]⟩, [], false, false, true,
    none, none, false⟩) := by decide +kernel
  have confined := (execute_confined Cancellation.steadyClock [cycle] arguments disk
    (List.forall_mem_singleton.mpr fun _ still => still)).2 _ read |>.2.1
  exact ⟨disk, confined fun _ => List.forall_mem_singleton.mpr rfl⟩

/-- A file outside, which is no file of the package, is written through the link. -/
theorem execute_writes_outside :
    let arguments := ["--source-root", "src", "--output-dir", "out"]
    let after := (execute arguments Cancellation.steadyClock [] outwardStore).store
    outwardStore.IsDisk ∧ ¬ ∀ location,
      (∀ tag ∈ unitOrder, outwardStore.locateEntry (unitPath ⟨0, ["out"]⟩ tag) ≠ .ok location) →
        after.entry? location = outwardStore.entry? location ∨
          Made outwardStore after location := by
  intro arguments after
  refine ⟨by decide +kernel, fun spared => ?_⟩
  have elsewhere : ∀ tag ∈ unitOrder,
      outwardStore.locateEntry (unitPath ⟨0, ["out"]⟩ tag) ≠ .ok ["note.txt"] := by decide +kernel
  have before : outwardStore.entry? ["note.txt"] = some (.file []) := by decide +kernel
  have written : after.entry? ["note.txt"] ≠ some (.file []) := by decide +kernel
  rcases spared _ elsewhere with same | made
  · exact written (same.trans before)
  · exact absurd (made.1.symm.trans before) nofun

end EnumLookup.Command
