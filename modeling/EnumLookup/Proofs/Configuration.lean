import EnumLookup.Configuration
import Mathlib.Tactic.Common

/-!
Configurations that are accepted. Arguments make a configuration exactly when no mistake is in them,
and an error names a mistake that is. The numbers of an accepted configuration are above zero or
are no numbers at all: a NaN is not above zero, but the checks only look for what is not.
-/
namespace EnumLookup

namespace Binary64

variable {x : Binary64}

def IsPositive (x : Binary64) : Prop :=
  (finite false 0).le x = true ∧ x.le (finite false 0) = false

instance (x : Binary64) : Decidable x.IsPositive := inferInstanceAs (Decidable (_ ∧ _))

theorem not_isPositive_nan : ¬ IsPositive nan := by decide

/-- A NaN is the only number that is neither above zero nor zero or below. -/
theorem isNonPositive_eq_false : x.isNonPositive = false ↔ x.IsPositive ∨ x = nan := by
  cases x with
  | nan => simp [isNonPositive, le]
  | infinite negative => cases negative <;> simp [isNonPositive, IsPositive, le]
  | finite negative units =>
    simp only [isNonPositive, IsPositive, le, reduceCtorEq, or_false, decide_eq_true_eq,
      decide_eq_false_iff_not, iff_and_self]
    omega

end Binary64

namespace CommandLine

variable {arguments next : Arguments} {switch : Switch} {value : String}

def Arguments.Exclusive (arguments : Arguments) : Prop := arguments.modes.length ≤ 1

theorem Arguments.Exclusive.watch_of_check (exclusive : arguments.Exclusive)
    (check : arguments.check = true) : arguments.watch = false := by
  by_contra watch
  rw [Bool.not_eq_false] at watch
  simp [Arguments.Exclusive, Arguments.modes, check, watch] at exclusive

/-- A mode is set only where no other one is. -/
theorem setMode_eq_ok {set : Arguments → Arguments}
    (ok : setMode switch set arguments = .ok next) :
    (∀ other ∈ arguments.modes, other = switch) ∧ next = set arguments := by
  unfold setMode at ok
  split at ok
  · cases ok
  · next none =>
    rw [List.find?_eq_none] at none
    exact ⟨fun other member => by simpa using none other member, (Except.ok.inj ok).symm⟩

theorem applyFlag_exclusive (exclusive : arguments.Exclusive)
    (ok : applyFlag switch arguments = .ok next) : next.Exclusive := by
  unfold applyFlag at ok
  split at ok
  case h_4 => exact (Except.ok.inj ok) ▸ exclusive
  case h_5 => cases ok
  all_goals
    obtain ⟨only, rfl⟩ := setMode_eq_ok ok
    revert only
    cases checks : arguments.check <;> cases lists : arguments.list <;>
      cases watches : arguments.watch <;>
      simp [Arguments.Exclusive, Arguments.modes, checks, lists, watches]

/-- Options with values are no modes. -/
theorem applyValue_modes (ok : applyValue switch value arguments = .ok next) :
    next.modes = arguments.modes := by
  unfold applyValue at ok
  split at ok
  case h_4 | h_5 =>
    unfold Except.map at ok
    split at ok <;> cases ok
    rfl
  case h_6 => cases ok
  all_goals
    cases ok
    rfl

theorem takeWords_exclusive {strays : List String} {words : List Word}
    (exclusive : arguments.Exclusive) (ok : takeWords arguments strays words = .ok (.run next)) :
    next.Exclusive := by
  fun_induction takeWords arguments strays words with
  | case1 =>
    cases ok
    exact exclusive
  | case5 _ _ _ _ _ _ applied ih | case7 _ _ _ _ _ _ _ _ applied ih =>
    refine ih ?_ ok
    rwa [Arguments.Exclusive, applyValue_modes applied]
  | case10 _ _ _ _ _ _ _ applied ih => exact ih (applyFlag_exclusive exclusive applied) ok
  | case11 _ _ _ _ _ _ _ ih => exact ih exclusive ok
  | _ => cases ok

/-- Arguments that can be read ask for one mode at most. -/
theorem request_exclusive {texts : List String} (read : request texts = .ok (.run arguments)) :
    arguments.Exclusive := by
  unfold request at read
  split at read
  · cases read
  · exact takeWords_exclusive (by decide : Arguments.initial.modes.length ≤ 1) read

end CommandLine

open CommandLine

/-- An error can be made from its own code, message and suggestion. -/
theorem ConfigError.make_self (error : ConfigError) :
    ConfigError.make error.code.label error.message error.suggestion = .ok error := by
  obtain ⟨code, message, suggestion⟩ := error
  cases code <;> rfl

namespace Config

variable {store : Store} {arguments : Arguments} {config : Config} {error : ConfigError}
  {roots : List Path} {interval : Binary64}

def sourceRoots : Config → List Path
  | generate config => config.sourceRoots
  | discovery config => config.sourceRoots

/-- The mistakes in arguments, each with the error that names it. -/
inductive Mistake (store : Store) (arguments : Arguments) : ConfigError → Prop
  | noRoot (none : arguments.sourceRoots = []) : Mistake store arguments .missingSourceRoot
  | absent {root : Path} (member : root ∈ arguments.sourceRoots)
      (absent : store.contains root = false) : Mistake store arguments (.pathNotFound root)
  | noDirectory {root : Path} (member : root ∈ arguments.sourceRoots)
      (there : store.contains root = true) (other : store.isDirectory root = false) :
      Mistake store arguments (.notADirectory root)
  | idle {interval : Binary64} (given : arguments.interval = some interval)
      (unwatched : arguments.watch = false) : Mistake store arguments .intervalWithoutWatch
  | interval {interval : Binary64} (given : arguments.interval = some interval)
      (low : interval.isNonPositive = true) : Mistake store arguments (.invalidInterval interval)
  | timeout {timeout : Binary64} (given : arguments.timeout = some timeout)
      (low : timeout.isNonPositive = true) : Mistake store arguments (.invalidTimeout timeout)

structure Sound (store : Store) (arguments : Arguments) : Prop where
  rooted : arguments.sourceRoots ≠ []
  directories : ∀ root ∈ arguments.sourceRoots, store.isDirectory root = true
  watched : ∀ interval, arguments.interval = some interval → arguments.watch = true
  interval : ∀ interval, arguments.interval = some interval → interval.isNonPositive = false
  timeout : ∀ timeout, arguments.timeout = some timeout → timeout.isNonPositive = false

theorem contains_of_isDirectory {root : Path} (directory : store.isDirectory root = true) :
    store.contains root = true := by
  unfold Store.isDirectory at directory
  rw [Store.contains, beq_iff_eq.mp directory]
  rfl

theorem Sound.no_mistake (sound : Sound store arguments) : ¬ Mistake store arguments error := by
  intro mistake
  cases mistake with
  | noRoot none => exact sound.rooted none
  | absent member absent =>
    rw [contains_of_isDirectory (sound.directories _ member)] at absent
    cases absent
  | noDirectory member there other =>
    rw [sound.directories _ member] at other
    cases other
  | idle given unwatched =>
    rw [sound.watched _ given] at unwatched
    cases unwatched
  | interval given low =>
    rw [sound.interval _ given] at low
    cases low
  | timeout given low =>
    rw [sound.timeout _ given] at low
    cases low

theorem checkRoots_cases (store : Store) (roots : List Path) :
    ((∀ root ∈ roots, store.isDirectory root = true) ∧ checkRoots store roots = .ok ()) ∨
      ∃ root ∈ roots,
        (store.contains root = false ∧ checkRoots.{0} store roots = .error (.pathNotFound root)) ∨
        (store.contains root = true ∧ store.isDirectory root = false ∧
          checkRoots.{0} store roots = .error (.notADirectory root)) := by
  induction roots with
  | nil => exact .inl ⟨by simp, rfl⟩
  | cons root rest ih =>
    by_cases there : store.contains root = true
    · by_cases directory : store.isDirectory root = true
      · have same : checkRoots.{0} store (root :: rest) = checkRoots store rest := by
          simp [checkRoots, there, directory]
        rw [same]
        rcases ih with ⟨directories, checked⟩ | ⟨wrong, member, found⟩
        · exact .inl ⟨List.forall_mem_cons.mpr ⟨directory, directories⟩, checked⟩
        · exact .inr ⟨wrong, List.mem_cons_of_mem _ member, found⟩
      · rw [Bool.not_eq_true] at directory
        refine .inr ⟨root, List.mem_cons_self .., .inr ⟨there, directory, ?_⟩⟩
        simp [checkRoots, there, directory]
    · rw [Bool.not_eq_true] at there
      refine .inr ⟨root, List.mem_cons_self .., .inl ⟨there, ?_⟩⟩
      simp [checkRoots, there]

theorem defaultInterval_isPositive : defaultInterval.IsPositive := by decide +kernel

theorem checkInterval_cases (store : Store) (arguments : Arguments) :
    ((∀ interval, arguments.interval = some interval →
        arguments.watch = true ∧ interval.isNonPositive = false) ∧
      checkInterval arguments = .ok (arguments.interval.getD defaultInterval)) ∨
    ∃ error, Mistake store arguments error ∧ checkInterval arguments = .error error := by
  unfold checkInterval
  cases given : arguments.interval with
  | none =>
    have standard : defaultInterval.isNonPositive = false :=
      Binary64.isNonPositive_eq_false.mpr (.inl defaultInterval_isPositive)
    exact .inl ⟨nofun, by simp [standard]⟩
  | some interval =>
    cases watches : arguments.watch with
    | false => exact .inr ⟨_, .idle given watches, by simp⟩
    | true =>
      cases low : interval.isNonPositive with
      | true => exact .inr ⟨_, .interval given low, by simp [low]⟩
      | false =>
        refine .inl ⟨?_, by simp [low]⟩
        rintro _ ⟨⟩
        exact ⟨rfl, low⟩

theorem checkTimeout_cases (store : Store) (arguments : Arguments) :
    ((∀ timeout, arguments.timeout = some timeout → timeout.isNonPositive = false) ∧
      checkTimeout arguments = .ok ()) ∨
    ∃ error, Mistake store arguments error ∧ checkTimeout.{0} arguments = .error error := by
  unfold checkTimeout
  cases given : arguments.timeout with
  | none => exact .inl ⟨nofun, rfl⟩
  | some timeout =>
    cases low : timeout.isNonPositive with
    | true => exact .inr ⟨_, .timeout given low, by simp [low]⟩
    | false =>
      refine .inl ⟨?_, by simp [low]⟩
      rintro _ ⟨⟩
      exact low

def asked (arguments : Arguments) : Config :=
  if arguments.list then
    .discovery ⟨arguments.sourceRoots, arguments.exclude, arguments.verbose⟩
  else
    .generate ⟨arguments.sourceRoots, arguments.outputDir, arguments.exclude, modeOf arguments,
      arguments.interval.getD defaultInterval, arguments.timeout, arguments.verbose⟩

theorem ofArguments_cases (store : Store) (arguments : Arguments) :
    (Sound store arguments ∧ ofArguments store arguments = .ok (asked arguments)) ∨
      ∃ error, Mistake store arguments error ∧ ofArguments store arguments = .error error := by
  simp only [ofArguments, Bind.bind, Except.bind, Pure.pure, Except.pure]
  by_cases none : arguments.sourceRoots = []
  · exact .inr ⟨_, .noRoot none, by simp [none]; rfl⟩
  rw [if_neg (by simpa using none)]
  rcases checkRoots_cases store arguments.sourceRoots with
    ⟨directories, checked⟩ | ⟨root, member, ⟨absent, checked⟩ | ⟨there, other, checked⟩⟩
  · rcases checkInterval_cases store arguments with ⟨interval, timed⟩ | ⟨error, mistake, timed⟩
    · rcases checkTimeout_cases store arguments with ⟨timeout, limited⟩ | ⟨error, mistake, limited⟩
      · refine .inl ⟨⟨none, directories, fun _ given => (interval _ given).1,
          fun _ given => (interval _ given).2, timeout⟩, ?_⟩
        simp only [checked, timed, limited, asked]
        split <;> rfl
      · exact .inr ⟨error, mistake, by simp only [checked, timed, limited]⟩
    · exact .inr ⟨error, mistake, by simp only [checked, timed]⟩
  · exact .inr ⟨_, .absent member absent, by simp only [checked]⟩
  · exact .inr ⟨_, .noDirectory member there other, by simp only [checked]⟩

/-- A configuration that can be run: its roots are there, its numbers are above zero unless they
were given as NaN, waits of their own belong to watching, and listing does not write. -/
structure Accepted (store : Store) (arguments : Arguments) (config : Config) : Prop where
  given : config.sourceRoots = arguments.sourceRoots
  rooted : config.sourceRoots ≠ []
  directories : ∀ root ∈ config.sourceRoots, store.isDirectory root = true
  interval : ∀ own, config = .generate own →
    own.interval.IsPositive ∨ arguments.interval = some .nan
  timeout : ∀ own, config = .generate own → ∀ timeout, own.timeout = some timeout →
    timeout.IsPositive ∨ arguments.timeout = some .nan
  waiting : ∀ own, config = .generate own → own.interval ≠ defaultInterval → own.mode = .watch
  listing : arguments.list = true → ∃ listing, config = .discovery listing

theorem modeOf_watch (exclusive : arguments.Exclusive) (watches : arguments.watch = true) :
    modeOf arguments = .watch := by
  have unchecked : ¬ arguments.check = true := by
    intro check
    rw [exclusive.watch_of_check check] at watches
    cases watches
  rw [modeOf, if_neg unchecked, if_pos watches]

theorem asked_accepted (exclusive : arguments.Exclusive) (sound : Sound store arguments) :
    Accepted store arguments (asked arguments) := by
  unfold asked
  split
  · exact ⟨rfl, sound.rooted, sound.directories, nofun, nofun, nofun, fun _ => ⟨_, rfl⟩⟩
  · next unlisted =>
    refine ⟨rfl, sound.rooted, sound.directories, ?_, ?_, ?_, fun listed => absurd listed unlisted⟩
    · rintro _ ⟨⟩
      cases given : arguments.interval with
      | none => exact .inl defaultInterval_isPositive
      | some interval =>
        rcases Binary64.isNonPositive_eq_false.mp (sound.interval _ given) with positive | rfl
        · exact .inl positive
        · exact .inr rfl
    · rintro _ ⟨⟩ timeout given
      rcases Binary64.isNonPositive_eq_false.mp (sound.timeout _ given) with positive | rfl
      · exact .inl positive
      · exact .inr given
    · rintro _ ⟨⟩ changed
      cases given : arguments.interval with
      | none => simp [given] at changed
      | some interval => exact modeOf_watch exclusive (sound.watched _ given)

/-- Arguments that can be read and hold no mistake make a configuration that can be run, but for
numbers that were given as NaN. All others end with an error that names one of their mistakes, and
its code is one of those that errors can have. -/
theorem accepted_or_mistaken {texts : List String}
    (read : request texts = .ok (.run arguments)) (store : Store) :
    (Sound store arguments ∧ ∃ config, ofArguments store arguments = .ok config ∧
      Accepted store arguments config) ∨
    (¬ Sound store arguments ∧ ∃ error, ofArguments store arguments = .error error ∧
      Mistake store arguments error ∧
      ConfigError.make error.code.label error.message error.suggestion = .ok error) := by
  rcases ofArguments_cases store arguments with ⟨sound, ok⟩ | ⟨error, mistake, wrong⟩
  · exact .inl ⟨sound, _, ok, asked_accepted (request_exclusive read) sound⟩
  · exact .inr ⟨fun sound => sound.no_mistake mistake, error, wrong, mistake, error.make_self⟩

def sourceStore : Store where
  entries := [(["src"], .directory)]

theorem accepted_or_mistaken_watching :
    let texts := ["--source-root", "src", "--watch", "--interval", "0.5", "--timeout", "30"]
    ∃ arguments, request texts = .ok (.run arguments) ∧ Sound sourceStore arguments ∧
      ∃ config, ofArguments sourceStore arguments = .ok config ∧
        Accepted sourceStore arguments config := by
  intro texts
  let arguments : Arguments := ⟨[⟨0, ["src"]⟩], ⟨0, ["generated"]⟩, [], false, false, true,
    some (.finite false (Nat.pow 2 1073)), some (.ofNat 30), false⟩
  have read : request texts = .ok (.run arguments) := by decide +kernel
  have sound : Sound sourceStore arguments := by
    refine ⟨by decide, by decide, fun _ _ => rfl, ?_, ?_⟩
    · rintro _ ⟨⟩
      decide +kernel
    · rintro _ ⟨⟩
      decide +kernel
  rcases accepted_or_mistaken read sourceStore with accepted | ⟨unsound, -⟩
  · exact ⟨arguments, read, accepted⟩
  · exact absurd sound unsound

/-- NaN is accepted as a time limit and as an interval, though it is not above zero. -/
theorem nan_accepted :
    let limited : Arguments := ⟨[⟨0, ["src"]⟩], ⟨0, ["generated"]⟩, [], false, false, false,
      none, some .nan, false⟩
    let waiting : Arguments :=
      { limited with watch := true, interval := some .nan, timeout := none }
    request ["--source-root", "src", "--timeout", "nan"] = .ok (.run limited) ∧
    (∃ own, ofArguments sourceStore limited = .ok (.generate own) ∧ own.timeout = some .nan) ∧
    request ["--source-root", "src", "--watch", "--interval", "nan"] = .ok (.run waiting) ∧
    (∃ own, ofArguments sourceStore waiting = .ok (.generate own) ∧ own.interval = .nan) ∧
    ¬ Binary64.nan.IsPositive := by
  intro limited waiting
  have limit : ofArguments sourceStore limited = .ok (asked limited) := by decide +kernel
  have wait : ofArguments sourceStore waiting = .ok (asked waiting) := by decide +kernel
  exact ⟨by decide +kernel, ⟨_, limit, rfl⟩, by decide +kernel, ⟨_, wait, rfl⟩,
    Binary64.not_isPositive_nan⟩

end Config

end EnumLookup
