import EnumLookup.Proofs.Source.Expressions
import EnumLookup.Source.Grammar.Pattern
import Mathlib

set_option mvcgen.warning false

/-!
What the parsers of patterns leave: an end of the tokens, at every level of the grammar.
-/
namespace EnumLookup.Source.Pattern

open EnumLookup.Source.Parser Std.Do

attribute [local grind →] List.IsSuffix.trans

variable {start : List Token} {pattern : Parser PUnit}

@[spec] theorem goesOn_advances : Advances start goesOn := by
  mvcgen [goesOn] with grind

@[spec] theorem capture_advances : Advances start capture := by
  mvcgen [capture] with grind

@[spec] theorem number_advances : Advances start number := by
  mvcgen [number] with grind

@[spec] theorem signedNumber_advances : Advances start signedNumber := by
  mvcgen [signedNumber] with grind

@[spec] theorem attributes_advances : Advances start attributes := by
  mvcgen [attributes] with grind

@[spec] theorem atEnd_advances : Advances start atEnd := by
  mvcgen [atEnd] with grind

section Nested

variable (nested : ∀ start, Advances start pattern)

include nested

@[spec] theorem item_advances : Advances start (item pattern) := by
  mvcgen [item, nested] with grind

@[spec] theorem parenthesised_advances : Advances start (parenthesised pattern) := by
  mvcgen [parenthesised, nested] with grind

@[spec] theorem bracketed_advances : Advances start (bracketed pattern) := by
  mvcgen [bracketed, nested] with grind

@[spec] theorem argumentsFrom_advances (bound : List Token) (named : Bool) :
    Advances start (argumentsFrom pattern bound named) := by
  induction bound generalizing named start with
  | nil => exact fail_advances
  | cons _ bound ih => mvcgen [argumentsFrom, nested, ih] with grind

@[spec] theorem classArguments_advances : Advances start (classArguments pattern) := by
  mvcgen [classArguments, nested] with grind

@[spec] theorem named_advances : Advances start (named pattern) := by
  mvcgen [named, nested] with grind

@[spec] theorem patterns_advances : Advances start (patterns pattern) := by
  mvcgen [patterns, nested] with grind

end Nested

section Expressions

variable (g : ExprGrammar)

@[spec] theorem literal_advances : Advances start (literal g) := by
  mvcgen [literal] with grind

@[spec] theorem key_advances : Advances start (key g) := by
  mvcgen [key] with grind

variable (nested : ∀ start, Advances start pattern)

include nested

@[spec] theorem entriesFrom_advances (bound : List Token) :
    Advances start (entriesFrom g pattern bound) := by
  induction bound generalizing start with
  | nil => exact fail_advances
  | cons _ bound ih => mvcgen [entriesFrom, nested, ih] with grind

@[spec] theorem mapping_advances : Advances start (mapping g pattern) := by
  mvcgen [mapping, nested] with grind

@[spec] theorem closed_advances : Advances start (closed g pattern) := by
  mvcgen [closed, nested] with grind

@[spec] theorem level_advances : Advances start (level g pattern) := by
  mvcgen [level, nested] with grind

omit nested in
@[spec] theorem ofDepth_advances (depth : Nat) : Advances start (ofDepth g depth) := by
  induction depth generalizing start with
  | zero => exact fail_advances
  | succ depth ih => exact level_advances g fun _ => ih

end Expressions

end EnumLookup.Source.Pattern
