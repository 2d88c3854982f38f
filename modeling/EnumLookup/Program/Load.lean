import EnumLookup.ParseCache
import EnumLookup.Program.Inheritance

/-!
Loading a program. Of several files that define a module the first one with a tree counts.
When all files are loaded, every class that does not look like an enum, but has bases, is
judged by them.
-/
namespace EnumLookup

open Declaration Text

variable [Characters]

namespace Program

structure Loading where
  modules : List LoadedModule
  cache : ParseCache
  events : List Event

def indexModule (file : SourceFile) (body : List Source.Stmt) : LoadedModule :=
  let context : ModuleContext := ⟨file.module, file.isPackage⟩
  ⟨context, moduleBindings context body, Declaration.declarations file.path file.module body⟩

namespace Loading

def knows (loading : Loading) (module : String) : Bool :=
  loading.modules.any fun loaded => loaded.name == module

/-- Takes in the outcome of parsing a file. Branches nested too deeply are not searched. -/
def take (loading : Loading) (file : SourceFile) (parsed : Parsed) : Loading :=
  let events := loading.events ++ parsed.events
  match parsed.tree with
  | none => ⟨loading.modules, parsed.cache, events⟩
  | some body =>
    if maxBranchDepth < branchDepth body then
      ⟨loading.modules, parsed.cache, events ++ [.skipped file.path .tooDeepToIndex]⟩
    else ⟨loading.modules ++ [indexModule file body], parsed.cache, events⟩

def add (loading : Loading) (file : SourceFile) : Except EncodeError Loading :=
  if loading.knows file.module then
    .ok { loading with events := loading.events ++ [.alreadyLoaded file.path file.module] }
  else (loading.cache.parse file).map (loading.take file)

def addAll (loading : Loading) : List SourceFile → Except EncodeError Loading
  | [] => .ok loading
  | file :: rest =>
    match loading.add file with
    | .error error => .error error
    | .ok loading => loading.addAll rest

end Loading

/-- Declarations whose kind is settled, with what was remembered and reported. -/
structure Settled (α : Type) where
  value : α
  memo : Memo
  events : List Event

/-- The kind of a declaration, judged by its bases if its name of a base does not tell. -/
def settle (program : Program) (declaration : ClassDeclaration) (memo : Memo) :
    Settled ClassDeclaration :=
  if declaration.kind = .enum || declaration.header.bases.isEmpty then ⟨declaration, memo, []⟩
  else match program.class? declaration.module declaration.qualname with
    | none => ⟨declaration, memo, []⟩
    | some loaded =>
      match program.isEnumClass loaded memo with
      | (.ok true, memo) => ⟨{ declaration with kind := .enum }, memo, []⟩
      | (.ok false, memo) => ⟨declaration, memo, []⟩
      | (.error error, memo) => ⟨declaration, memo, [.unclassified declaration.qualname error]⟩

def settleAll (program : Program) : List ClassDeclaration → Memo → Settled (List ClassDeclaration)
  | [], memo => ⟨[], memo, []⟩
  | declaration :: rest, memo =>
    let first := program.settle declaration memo
    let others := settleAll program rest first.memo
    ⟨first.value :: others.value, others.memo, first.events ++ others.events⟩

def settleModules (program : Program) : List LoadedModule → Memo → Settled (List LoadedModule)
  | [], memo => ⟨[], memo, []⟩
  | module :: rest, memo =>
    let first := program.settleAll module.declarations memo
    let others := settleModules program rest first.memo
    ⟨{ module with declarations := first.value } :: others.value, others.memo,
      first.events ++ others.events⟩

structure Loaded where
  program : Program
  memo : Memo
  cache : ParseCache
  events : List Event

def ofLoading (limits : Limits) (loading : Loading) : Loaded :=
  let settled := settleModules ⟨limits, loading.modules⟩ loading.modules []
  ⟨⟨limits, settled.value⟩, settled.memo, loading.cache, loading.events ++ settled.events⟩

/-- The program that files make up. A text without a UTF-8 form ends the loading. -/
def load (limits : Limits) (cache : ParseCache) (files : List SourceFile) :
    Except EncodeError Loaded :=
  ((⟨[], cache, []⟩ : Loading).addAll files).map (ofLoading limits)

end Program

end EnumLookup
