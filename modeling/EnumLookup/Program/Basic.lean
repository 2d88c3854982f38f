import EnumLookup.Declaration.Bindings
import EnumLookup.Declaration.Class

/-!
Programs: the modules of a source set, indexed by their bindings and their classes.
A class is known by its module and its qualified name in it; of several class statements
with that name the last one counts.
-/
namespace EnumLookup

open Declaration

/-- How far questions about a program are followed. -/
structure Limits where
  /-- How often a name may be replaced by what it is bound to. -/
  renamings : Nat
  /-- How long a chain of base classes may be. -/
  nesting : Nat
  deriving DecidableEq, Repr

/-- Renaming is meant to be limited by nothing but its end. Chains of bases are limited by the depth
of calls that an interpreter allows; how much of it is left for them depends on where the question
is asked, and the number here is one that holds about the top level. -/
def Limits.standard : Limits := ⟨UInt64.size, 490⟩

structure LoadedModule where
  context : ModuleContext
  bindings : Bindings
  declarations : List ClassDeclaration
  deriving Repr

namespace LoadedModule

def name (module : LoadedModule) : String := module.context.module

/-- The class that a qualified name stands for in a module: the last one declared. -/
def class? (module : LoadedModule) (qualname : String) : Option ClassDeclaration :=
  module.declarations.findRev? fun declaration => declaration.qualname == qualname

def hasClass (module : LoadedModule) (qualname : String) : Bool :=
  module.declarations.any fun declaration => declaration.qualname == qualname

end LoadedModule

structure Program where
  limits : Limits
  modules : List LoadedModule
  deriving Repr

namespace Program

def module? (program : Program) (name : String) : Option LoadedModule :=
  program.modules.find? fun module => module.name == name

def isLoaded (program : Program) (name : String) : Bool :=
  program.modules.any fun module => module.name == name

def moduleNames (program : Program) : List String := program.modules.map (·.name)

def declarations (program : Program) : List ClassDeclaration :=
  program.modules.flatMap (·.declarations)

end Program

end EnumLookup
