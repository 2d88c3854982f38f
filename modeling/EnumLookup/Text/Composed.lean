import EnumLookup.Text.CodeRanges
import EnumLookup.Text.Composed.DecompositionTable
import EnumLookup.Text.Composed.CompositionTable

/-!
The composed compatibility form of identifiers (normalisation form KC): decompose, put
combining characters into canonical order, compose. Two spellings of an identifier are
one name when their composed forms agree. Only characters that identifiers may hold
have an entry in the decomposition tables, so the form is meant for identifiers alone.
-/
namespace EnumLookup.Text.Composed

structure Run where
  first : Nat
  last : Nat
  value : Nat

def Run.covers (run : Run) (code : Nat) : Bool := run.first ≤ code && code ≤ run.last

def runsFrom (last : Nat) : List Nat → List Run
  | gap :: extent :: value :: rest =>
    ⟨last + gap, last + gap + extent, value⟩ :: runsFrom (last + gap + extent) rest
  | _ => []

/-- Reads `count`-prefixed groups; the numbers left bound the number of groups. -/
def groupsFrom : Nat → Nat → List Nat → List (Nat × List Nat)
  | fuel + 1, last, gap :: count :: rest =>
    (last + gap, rest.take count) :: groupsFrom fuel (last + gap) (rest.drop count)
  | _, _, _ => []

def triplesFrom : List Nat → List (Nat × Nat × Nat)
  | a :: b :: c :: rest => (a, b, c) :: triplesFrom rest
  | _ => []

def singles : List Run := runsFrom 0 (singleLines.flatMap hexNumbers)

def severals : List (Nat × List Nat) :=
  let numbers := severalLines.flatMap hexNumbers
  groupsFrom numbers.length 0 numbers

def classes : List Run := runsFrom 0 (classLines.flatMap hexNumbers)

def composites : List (Nat × Nat × Nat) := triplesFrom (compositeLines.flatMap hexNumbers)

def syllableBase : Nat := 0xAC00
def leadBase : Nat := 0x1100
def vowelBase : Nat := 0x1161
def tailBase : Nat := 0x11A7
def leadCount : Nat := 19
def vowelCount : Nat := 21
def tailCount : Nat := 28

/-- A Hangul syllable is its leading consonant, its vowel and its tail, if it has one. -/
def decomposeSyllable (code : Nat) : List Nat :=
  let index := code - syllableBase
  let lead := leadBase + index / (vowelCount * tailCount)
  let vowel := vowelBase + index % (vowelCount * tailCount) / tailCount
  if index % tailCount = 0 then [lead, vowel] else [lead, vowel, tailBase + index % tailCount]

def isSyllable (code : Nat) : Bool :=
  syllableBase ≤ code && code < syllableBase + leadCount * vowelCount * tailCount

def decompose (code : Nat) : List Nat :=
  if code < 128 then [code]
  else if isSyllable code then decomposeSyllable code
  else match singles.find? (·.covers code) with
    | some run => [run.value + (code - run.first)]
    | none => (severals.lookup code).getD [code]

/-- The canonical combining class; zero for everything that does not combine. -/
def combiningClass (code : Nat) : Nat :=
  if code < 128 then 0 else ((classes.find? (·.covers code)).map (·.value)).getD 0

/-- Moves a combining character before those of a greater class. The list is reversed. -/
def place (code : Nat) : List Nat → List Nat
  | [] => [code]
  | before :: rest =>
    if combiningClass code ≠ 0 ∧ combiningClass code < combiningClass before
    then before :: place code rest
    else code :: before :: rest

def canonicalOrder (codes : List Nat) : List Nat :=
  (codes.foldl (fun ordered code => place code ordered) []).reverse

def composeSyllable? (first second : Nat) : Option Nat :=
  if leadBase ≤ first ∧ first < leadBase + leadCount ∧
      vowelBase ≤ second ∧ second < vowelBase + vowelCount then
    some (syllableBase + ((first - leadBase) * vowelCount + (second - vowelBase)) * tailCount)
  else if isSyllable first ∧ (first - syllableBase) % tailCount = 0 ∧
      tailBase < second ∧ second < tailBase + tailCount then
    some (first + (second - tailBase))
  else none

def composePair? (first second : Nat) : Option Nat :=
  match composeSyllable? first second with
  | some syllable => some syllable
  | none => (composites.find? fun (a, b, _) => a = first && b = second).map (·.2.2)

/-- A starter with the combining characters after it that it did not absorb, reversed. -/
structure Cluster where
  starter : Nat
  marks : List Nat

def Cluster.codes (cluster : Cluster) : List Nat := cluster.starter :: cluster.marks.reverse

/-- A mark reaches the starter when no mark between them has its class or a greater one. -/
def Cluster.absorb? (cluster : Cluster) (code : Nat) : Option Cluster :=
  let reaches := match cluster.marks with
    | [] => true
    | mark :: _ => combiningClass mark < combiningClass code
  if reaches then (composePair? cluster.starter code).map ({ cluster with starter := · })
  else none

def composeFrom (cluster : Cluster) : List Nat → List Nat
  | [] => cluster.codes
  | code :: rest =>
    match cluster.absorb? code with
    | some grown => composeFrom grown rest
    | none =>
      if combiningClass code = 0 then cluster.codes ++ composeFrom ⟨code, []⟩ rest
      else composeFrom { cluster with marks := code :: cluster.marks } rest

/-- Marks before the first starter compose with nothing. -/
def compose : List Nat → List Nat
  | [] => []
  | code :: rest =>
    if combiningClass code = 0 then composeFrom ⟨code, []⟩ rest else code :: compose rest

/-- The composed form of an identifier; an identifier in ASCII is its own. -/
def normalize (name : List Char) : List Char :=
  if name.all (·.toNat < 128) then name
  else (compose (canonicalOrder (name.flatMap fun c => decompose c.toNat))).map Char.ofNat

end EnumLookup.Text.Composed
