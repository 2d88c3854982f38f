/-!
Sets of code points written as runs. A coded set holds two hexadecimal numbers for
each run: the distance of its first member from the last member of the run before
it (from zero for the first run), and the number of members after the first.
-/
namespace EnumLookup.Text

def hexDigit? (c : Char) : Option Nat :=
  if '0' ≤ c ∧ c ≤ '9' then some (c.toNat - '0'.toNat)
  else if 'a' ≤ c ∧ c ≤ 'f' then some (c.toNat - 'a'.toNat + 10)
  else if 'A' ≤ c ∧ c ≤ 'F' then some (c.toNat - 'A'.toNat + 10)
  else none

/-- The hexadecimal numbers of a text; whatever is no digit separates them. -/
def hexNumbers (text : String) : List Nat :=
  scan text.toList none
where
  scan : List Char → Option Nat → List Nat
    | [], pending => pending.toList
    | c :: rest, pending =>
      match hexDigit? c with
      | some digit => scan rest (some (16 * pending.getD 0 + digit))
      | none => pending.toList ++ scan rest none

/-- Closed intervals of code points, in increasing order. -/
structure CodeRanges where
  intervals : List (Nat × Nat)
  deriving Repr

namespace CodeRanges

def ofRuns (last : Nat) : List Nat → List (Nat × Nat)
  | gap :: extent :: rest =>
    (last + gap, last + gap + extent) :: ofRuns (last + gap + extent) rest
  | _ => []

def ofLines (lines : List String) : CodeRanges :=
  ⟨ofRuns 0 (lines.flatMap hexNumbers)⟩

def contains (ranges : CodeRanges) (code : Nat) : Bool :=
  ranges.intervals.any fun interval => interval.1 ≤ code && code ≤ interval.2

end CodeRanges

end EnumLookup.Text
