import EnumLookup.Generation.Host
import EnumLookup.Program.Load

/-!
A program as the generator sees it: its nodes are its declarations, and what is remembered
about enums goes from question to question.
-/
namespace EnumLookup.Program

open Declaration

/-- What a decorator of a declaration refers to, by its index. -/
def annotationType (program : Program) (declaration : ClassDeclaration) (index : Nat) :
    Except ResolutionError (Option String) :=
  match program.module? declaration.module, declaration.header.decorators[index]? with
  | some module, some decorator =>
    match decorator.callTarget.dottedName? with
    | some reference => program.resolve module reference
    | none => .ok none
  | _, _ => .ok none

def enumType (loaded : LoadedClass) : EnumType :=
  ⟨loaded.fullName, loaded.module.name, members loaded.declaration.body⟩

/-- A chain of bases that is too long is reported for the class asked about. -/
def atClass (qualname : String) : ResolutionError → ResolutionError
  | .tooDeep _ => .tooDeep qualname
  | error => error

def declaredType (program : Program) (module qualname : String) : Question (Option EnumType) :=
  fun memo =>
    match program.class? module qualname with
    | none => (.ok none, memo)
    | some loaded =>
      match program.isEnumClass loaded memo with
      | (.ok true, memo) => (.ok (some (enumType loaded)), memo)
      | (.ok false, memo) => (.ok none, memo)
      | (.error error, memo) => (.error (atClass qualname error), memo)

def host (program : Program) : Generation.Host ClassDeclaration Memo where
  key := ClassDeclaration.key
  kind := ClassDeclaration.kind
  annotationCount declaration := declaration.header.decorators.length
  annotationType declaration index memo := (program.annotationType declaration index, memo)
  declaredType declaration := program.declaredType declaration.module declaration.qualname

end EnumLookup.Program
