import EnumLookup.Binary64.Basic

/-!
Cancellation. Sources are flags, deadlines and combinations of sources; a run sees of them
only the answers to its polls, in order, so for a run a cancellation is the sequence of
these answers. Combinations may be nested to any depth here, which a limited depth of calls
would not allow.
-/
namespace EnumLookup

inductive CancelSource where
  /-- A flag, known by its number. -/
  | token (flag : Nat)
  /-- Requested from an instant of the clock on. -/
  | deadline (instant : Binary64)
  /-- Requested as soon as one of its sources is. -/
  | anyOf (sources : List CancelSource)

structure Signals where
  raised : List Nat
  now : Binary64

namespace CancelSource

/-- Requested once `seconds` have elapsed from the instant on. -/
def after (instant seconds : Binary64) : CancelSource := deadline (instant.add seconds)

def composite (sources : List (Option CancelSource)) : CancelSource :=
  anyOf (sources.filterMap id)

mutual
def isRequested (signals : Signals) : CancelSource → Bool
  | token flag => signals.raised.contains flag
  | deadline instant => instant.le signals.now
  | anyOf sources => isAnyRequested signals sources

def isAnyRequested (signals : Signals) : List CancelSource → Bool
  | [] => false
  | source :: rest => isRequested signals source || isAnyRequested signals rest
end

end CancelSource

/-- Raises a flag, sets the clock, or both. -/
structure SignalStep where
  raise : Option Nat
  clock : Option Binary64

def Signals.step (signals : Signals) (step : SignalStep) : Signals :=
  ⟨step.raise.toList ++ signals.raised, step.clock.getD signals.now⟩

/-- The answers to the polls of one run, by their number from zero. -/
abbrev Cancellation := Nat → Bool

namespace Cancellation

def never : Cancellation := fun _ => false

/-- Not requested for the first `polls` polls, requested afterwards. -/
def afterPolls (polls : Nat) : Cancellation := fun poll => polls ≤ poll

def either (a b : Cancellation) : Cancellation := fun poll => a poll || b poll

/-- A clock as a run reads it: the time elapsed since its start at each poll. -/
abbrev Clock := Nat → Binary64

/-- A poll takes a microsecond. -/
def steadyClock : Clock := fun poll => Binary64.ofRatio false (poll + 1) 1000000

/-- Requested from the first poll on at which the given time has elapsed. -/
def deadline (clock : Clock) (seconds : Binary64) : Cancellation :=
  fun poll => seconds.le (clock poll)

/-- A run without a time limit is never cancelled. -/
def ofTimeout (clock : Clock) : Option Binary64 → Cancellation
  | none => never
  | some seconds => deadline clock seconds

end Cancellation

end EnumLookup
