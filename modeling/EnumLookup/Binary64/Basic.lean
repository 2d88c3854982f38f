/-!
Binary64 numbers, as an ordered type with rounded addition. A finite magnitude is a
whole number of units of 2^-1074, the least positive number of the format, so order
and sums are those of whole numbers; only rounding looks at significands.
-/
namespace EnumLookup

inductive Binary64 where
  | nan
  | infinite (negative : Bool)
  | finite (negative : Bool) (units : Nat)
  deriving DecidableEq, Repr

namespace Binary64

def one : Nat := Nat.pow 2 1074

/-- The first magnitude that is too large for a finite number, in units. -/
def limit : Nat := Nat.pow 2 (1024 + 1074)

def ofNat (n : Nat) : Binary64 := .finite false (n * one)

/-- The nearest whole number; of two the even one. -/
def roundDiv (num den : Nat) : Nat :=
  let quotient := num / den
  let twice := 2 * (num % den)
  if twice < den then quotient
  else if den < twice then quotient + 1
  else quotient + quotient % 2

def roundUnits (num den : Nat) : Nat :=
  let surplus := (num / den).log2 + 1 - 53
  roundDiv num (den * Nat.pow 2 surplus) * Nat.pow 2 surplus

def ofUnits (negative : Bool) (units : Nat) : Binary64 :=
  if units < limit then .finite negative units else .infinite negative

/-- The number nearest to `num / den`. -/
def ofRatio (negative : Bool) (num den : Nat) : Binary64 :=
  ofUnits negative (roundUnits (num * one) den)

def digitCount (n : Nat) : Nat := (Nat.toDigits 10 n).length

/-- The number nearest to `significand * 10 ^ exponent`. Exponents that leave the range of
the format are told by the digit count, without computing the power. -/
def ofDecimal (negative : Bool) (significand : Nat) (exponent : Int) : Binary64 :=
  let size := exponent + digitCount significand
  if significand = 0 ∨ size < -400 then .finite negative 0
  else if 400 < size then .infinite negative
  else if 0 ≤ exponent then ofRatio negative (significand * Nat.pow 10 exponent.toNat) 1
  else ofRatio negative significand (Nat.pow 10 (-exponent).toNat)

def signed (negative : Bool) (units : Nat) : Int := if negative then -units else units

/-- Order of numbers; the two zeros are equal, and a NaN is below nothing. -/
def le : Binary64 → Binary64 → Bool
  | finite s a, finite t b => signed s a ≤ signed t b
  | infinite s, infinite t => s || !t
  | infinite s, finite _ _ => s
  | finite _ _, infinite t => !t
  | nan, _ => false
  | finite _ _, nan => false
  | infinite _, nan => false

/-- The rounded sum. Opposite infinities have none. -/
def add : Binary64 → Binary64 → Binary64
  | nan, _ => nan
  | _, nan => nan
  | infinite s, infinite t => if s = t then .infinite s else nan
  | infinite s, finite _ _ => .infinite s
  | finite _ _, infinite t => .infinite t
  | finite s a, finite t b =>
    let sum := signed s a + signed t b
    if sum = 0 then .finite (s && t) 0
    else ofUnits (sum < 0) (roundUnits sum.natAbs 1)

/-- Zero and every number below it; a NaN is not. -/
def isNonPositive (x : Binary64) : Bool := x.le (finite false 0)

theorem le_trans {a b c : Binary64} (hab : a.le b = true) (hbc : b.le c = true) :
    a.le c = true := by
  cases a <;> cases b <;> cases c <;> simp_all [le]
  · rename_i s _
    cases s <;> simp_all
  · omega

end Binary64

end EnumLookup
