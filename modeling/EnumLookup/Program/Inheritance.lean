import EnumLookup.Program.Names

/-!
Which classes are enums: those that reach one of the base classes of the enum module
through their bases. Answers found on the way are remembered under the dotted name of the
class. A class that is among its own bases has no answer.
-/
namespace EnumLookup

open Declaration Text

def enumBases : List String := enumBaseNames.map ("enum." ++ ·)

/-- Answers found before, by the dotted name of the class, the latest first. -/
abbrev Memo := List (String × Bool)

/-- A question that may be answered from the memory, and that adds to it. -/
abbrev Question (α : Type) := Memo → Except ResolutionError α × Memo

structure LoadedClass where
  module : LoadedModule
  declaration : ClassDeclaration

namespace LoadedClass

def qualname (loaded : LoadedClass) : String := loaded.declaration.qualname

def fullName (loaded : LoadedClass) : String := loaded.module.name ++ "." ++ loaded.qualname

def bases (loaded : LoadedClass) : List Source.Expr := loaded.declaration.header.bases

end LoadedClass

namespace Program

def class? (program : Program) (module qualname : String) : Option LoadedClass := do
  let home ← program.module? module
  let declaration ← home.class? qualname
  return ⟨home, declaration⟩

/-- The qualified name of a base. The body of a class also sees the classes in the body around
it, which are not renamed. -/
def resolveBase (program : Program) (loaded : LoadedClass) (base : Source.Expr) :
    Except ResolutionError (Option String) :=
  match base.dottedName? with
  | none => .ok none
  | some reference =>
    let (head, rest) := Dotted.cut reference
    let outer := Dotted.enclosing loaded.qualname
    let sibling := outer ++ "." ++ head
    if outer ≠ "" && loaded.module.hasClass sibling then
      .ok (some (Dotted.extend (loaded.module.name ++ "." ++ sibling) rest))
    else program.resolve loaded.module reference

def classNamed? (program : Program) (name : String) : Option LoadedClass := do
  let (home, qualname) ← program.splitModule? name
  let declaration ← home.class? qualname
  return ⟨home, declaration⟩

/-- What a base says about its class: that it is an enum, that another class decides, or
nothing. -/
inductive BaseVerdict where
  | enum
  | inherits (parent : LoadedClass)
  | foreign

def judgeBase (program : Program) (loaded : LoadedClass) (base : Source.Expr) :
    Except ResolutionError BaseVerdict :=
  match program.resolveBase loaded base with
  | .error error => .error error
  | .ok none => .ok .foreign
  | .ok (some name) =>
    if enumBases.contains name then .ok .enum
    else match program.classNamed? name with
      | some parent => .ok (.inherits parent)
      | none => .ok .foreign

/-- Whether a base makes its class an enum, given how to decide it for the classes above. Bases
are looked at in order, up to the first that does. -/
def hasEnumBase (program : Program) (above : LoadedClass → Question Bool)
    (loaded : LoadedClass) : List Source.Expr → Question Bool
  | [], memo => (.ok false, memo)
  | base :: rest, memo =>
    match program.judgeBase loaded base with
    | .error error => (.error error, memo)
    | .ok .enum => (.ok true, memo)
    | .ok .foreign => hasEnumBase program above loaded rest memo
    | .ok (.inherits parent) =>
      match above parent memo with
      | (.ok false, memo) => hasEnumBase program above loaded rest memo
      | answer => answer

/-- Whether a class is an enum. `visiting` holds the classes whose bases led here; no more than
`depth` further classes are entered. -/
def isEnumWithin (program : Program) (depth : Nat) (visiting : List String)
    (loaded : LoadedClass) : Question Bool := fun memo =>
  match memo.lookup loaded.fullName with
  | some known => (.ok known, memo)
  | none =>
    if visiting.contains loaded.fullName then
      (.error (.inheritanceCycle loaded.fullName), memo)
    else match depth with
      | 0 => (.error (.tooDeep loaded.qualname), memo)
      | depth + 1 =>
        let above := isEnumWithin program depth (loaded.fullName :: visiting)
        match program.hasEnumBase above loaded loaded.bases memo with
        | (.ok found, memo) => (.ok found, (loaded.fullName, found) :: memo)
        | (.error error, memo) => (.error error, memo)

def isEnumClass (program : Program) (loaded : LoadedClass) : Question Bool :=
  program.isEnumWithin program.limits.nesting [] loaded

end Program

end EnumLookup
