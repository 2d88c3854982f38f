/-!
Dotted names. A name is taken apart at its dots into components, of which there is
always at least one; joining the components gives the name back.
-/
namespace EnumLookup.Text.Dotted

def splitDots : List Char → List (List Char)
  | [] => [[]]
  | c :: rest =>
    if c = '.' then [] :: splitDots rest
    else match splitDots rest with
      | [] => [[c]]
      | part :: parts => (c :: part) :: parts

def joinDots : List (List Char) → List Char
  | [] => []
  | [part] => part
  | part :: parts => part ++ '.' :: joinDots parts

def components (name : String) : List String := (splitDots name.toList).map String.ofList

def join (parts : List String) : String := String.ofList (joinDots (parts.map String.toList))

/-- The text before the first dot and the text after it, empty when there is none. -/
def cut (name : String) : String × String :=
  (String.ofList (name.toList.takeWhile (· ≠ '.')),
   String.ofList ((name.toList.dropWhile (· ≠ '.')).drop 1))

/-- The text before the last dot, empty when there is none. -/
def enclosing (name : String) : String := join (components name).dropLast

/-- `outer.inner`, or `outer` alone when there is nothing inside. -/
def extend (outer inner : String) : String :=
  if inner = "" then outer else outer ++ "." ++ inner

/-- `outer.inner`, or `inner` alone at the outermost level. -/
def qualify (outer inner : String) : String :=
  if outer = "" then inner else outer ++ "." ++ inner

theorem splitDots_ne_nil (cs : List Char) : splitDots cs ≠ [] := by
  cases cs with
  | nil => simp [splitDots]
  | cons c rest =>
    simp only [splitDots]
    split
    · simp
    · split <;> simp

theorem joinDots_cons {part : List Char} {parts : List (List Char)} (h : parts ≠ []) :
    joinDots (part :: parts) = part ++ '.' :: joinDots parts := by
  cases parts with
  | nil => exact absurd rfl h
  | cons => rfl

/-- Joining the components of a name gives the name back. -/
theorem joinDots_splitDots (cs : List Char) : joinDots (splitDots cs) = cs := by
  induction cs with
  | nil => rfl
  | cons c rest ih =>
    have nonempty := splitDots_ne_nil rest
    simp only [splitDots]
    split
    · next h => rw [joinDots_cons nonempty, ih, h]; rfl
    · split
      · next h => exact absurd h nonempty
      · next part parts h =>
        rw [h] at ih
        cases parts with
        | nil => simpa [joinDots] using ih
        | cons => simpa [joinDots] using ih

theorem join_components (name : String) : join (components name) = name := by
  have h : (String.toList ∘ String.ofList) = id := funext fun cs => String.toList_ofList
  simp [join, components, joinDots_splitDots, h]

end EnumLookup.Text.Dotted
