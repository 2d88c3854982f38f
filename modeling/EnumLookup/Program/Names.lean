import EnumLookup.Program.Basic
import EnumLookup.Resolution

/-!
Names in a program. A dotted name lies in a module when the module is a proper prefix of
it, and of several such modules in the longest. A name that its module binds to another
name is replaced by that one, until a name is left that stands for itself.
-/
namespace EnumLookup

/-- Names that are bound everywhere: the builtins, and what every module has as an object. -/
def builtinNames : List String :=
  ["ArithmeticError", "AssertionError", "AttributeError", "BaseException", "BaseExceptionGroup",
   "BlockingIOError", "BrokenPipeError", "BufferError", "BytesWarning", "ChildProcessError",
   "ConnectionAbortedError", "ConnectionError", "ConnectionRefusedError", "ConnectionResetError",
   "DeprecationWarning", "EOFError", "Ellipsis", "EncodingWarning", "EnvironmentError",
   "Exception", "ExceptionGroup", "False", "FileExistsError", "FileNotFoundError",
   "FloatingPointError", "FutureWarning", "GeneratorExit", "IOError", "ImportError",
   "ImportWarning", "IndentationError", "IndexError", "InterruptedError", "IsADirectoryError",
   "KeyError", "KeyboardInterrupt", "LookupError", "MemoryError", "ModuleNotFoundError",
   "NameError", "None", "NotADirectoryError", "NotImplemented", "NotImplementedError", "OSError",
   "OverflowError", "PendingDeprecationWarning", "PermissionError", "ProcessLookupError",
   "RecursionError", "ReferenceError", "ResourceWarning", "RuntimeError", "RuntimeWarning",
   "StopAsyncIteration", "StopIteration", "SyntaxError", "SyntaxWarning", "SystemError",
   "SystemExit", "TabError", "TimeoutError", "True", "TypeError", "UnboundLocalError",
   "UnicodeDecodeError", "UnicodeEncodeError", "UnicodeError", "UnicodeTranslateError",
   "UnicodeWarning", "UserWarning", "ValueError", "Warning", "ZeroDivisionError",
   "__annotations__", "__build_class__", "__class__", "__debug__", "__delattr__", "__dict__",
   "__dir__", "__doc__", "__eq__", "__format__", "__ge__", "__getattribute__", "__getstate__",
   "__gt__", "__hash__", "__import__", "__init__", "__init_subclass__", "__le__", "__loader__",
   "__lt__", "__name__", "__ne__", "__new__", "__package__", "__reduce__", "__reduce_ex__",
   "__repr__", "__setattr__", "__sizeof__", "__spec__", "__str__", "__subclasshook__", "abs",
   "aiter", "all", "anext", "any", "ascii", "bin", "bool", "breakpoint", "bytearray", "bytes",
   "callable", "chr", "classmethod", "compile", "complex", "copyright", "credits", "delattr",
   "dict", "dir", "divmod", "enumerate", "eval", "exec", "exit", "filter", "float", "format",
   "frozenset", "getattr", "globals", "hasattr", "hash", "help", "hex", "id", "input", "int",
   "isinstance", "issubclass", "iter", "len", "license", "list", "locals", "map", "max",
   "memoryview", "min", "next", "object", "oct", "open", "ord", "pow", "print", "property",
   "quit", "range", "repr", "reversed", "round", "set", "setattr", "slice", "sorted",
   "staticmethod", "str", "sum", "super", "tuple", "type", "vars", "zip"]

def builtinModule : String := "builtins"

namespace Program

open Text

/-- The longest of the first `count` prefixes of some components that is a loaded module, with
what follows it. -/
def splitWithin (program : Program) (parts : List String) : Nat → Option (LoadedModule × String)
  | 0 => none
  | count + 1 =>
    match program.module? (Dotted.join (parts.take (count + 1))) with
    | some module => some (module, Dotted.join (parts.drop (count + 1)))
    | none => splitWithin program parts count

/-- The module that a name lies in, and the name inside it. -/
def splitModule? (program : Program) (name : String) : Option (LoadedModule × String) :=
  let parts := Dotted.components name
  program.splitWithin parts (parts.length - 1)

/-- What a name is replaced by: the binding of its head in its module. A name stands for itself
when no module holds it, the head is not bound, or it is bound to itself. -/
def rename? (program : Program) (name : String) : Option String :=
  match program.splitModule? name with
  | none => none
  | some (module, inner) =>
    let (head, tail) := Dotted.cut inner
    match module.bindings.lookup head with
    | none => none
    | some target =>
      if target = module.name ++ "." ++ head then none else some (Dotted.extend target tail)

/-- Replaces a name until it stands for itself or comes back, at most so many times; `seen` holds
the names before it. A name that is given up stands for a search that has not ended: with no limit
it may go on for ever. -/
def canonicalWithin (program : Program) : Nat → List String → String →
    Except ResolutionError String
  | 0, _, name => .error (.endless name)
  | steps + 1, seen, name =>
    if seen.contains name then .error (.importCycle name)
    else match program.rename? name with
      | none => .ok name
      | some next => canonicalWithin program steps (name :: seen) next

/-- The name that stands for itself to which a name leads. -/
def canonicalName (program : Program) (name : String) : Except ResolutionError String :=
  program.canonicalWithin program.limits.renamings [] name

def expand? (module : LoadedModule) (reference : String) : Option String :=
  let (head, rest) := Dotted.cut reference
  match module.bindings.lookup head with
  | some target => some (Dotted.extend target rest)
  | none =>
    if builtinNames.contains head then
      some (Dotted.extend (builtinModule ++ "." ++ head) rest)
    else none

def resolve (program : Program) (module : LoadedModule) (reference : String) :
    Except ResolutionError (Option String) :=
  match expand? module reference with
  | none => .ok none
  | some name => (program.canonicalName name).map some

end Program

end EnumLookup
