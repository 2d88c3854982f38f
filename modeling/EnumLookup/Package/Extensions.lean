import EnumLookup.Descriptor
import EnumLookup.Package.Unit
import EnumLookup.Text.Order

/-!
The unit of lookup functions: a dispatcher, and for each enum a function that maps its
values to member names. Modules are imported under aliases of their own, so no module
name can hide a name that the unit uses.
-/
namespace EnumLookup.Package

open Text

def dispatchFunction : String := "to_string_fast"

def flatName (name : String) : String :=
  String.ofList (name.toList.map fun c => if c = '.' then '_' else c)

/-- The name of an enum's function if no other enum asks for it. -/
def baseName (descriptor : Descriptor) : String :=
  flatName descriptor.qualifiedName ++ "_" ++ dispatchFunction

/-- The n-th enum that asks for a name gets it with `_n` behind, the first one as it is. -/
def numbered (base : String) (occurrence : Nat) : String :=
  if occurrence = 1 then base else base ++ "_" ++ decimal occurrence

def functionNamesAfter (asked : List String) : List Descriptor → List String
  | [] => []
  | descriptor :: rest =>
    let base := baseName descriptor
    numbered base (asked.count base + 1) :: functionNamesAfter (base :: asked) rest

def functionNames (descriptors : List Descriptor) : List String :=
  functionNamesAfter [] descriptors

/-- The modules of the enums, each once, in increasing order. -/
def modules (descriptors : List Descriptor) : List String :=
  sortedDistinct (descriptors.map (·.module))

def aliasOf (index : Nat) : String := "_module_" ++ decimal index

/-- Each module with the alias under which it is imported. -/
def moduleAliases (descriptors : List Descriptor) : List (String × String) :=
  (modules descriptors).mapIdx fun index module => (module, aliasOf index)

/-- The lookup function of an enum whose module has an alias. Values that equal a member map
to its name; of equal members the first one counts. -/
def mappingFunction (descriptor : Descriptor) (name moduleAlias : String) : List String :=
  let reference := moduleAlias ++ descriptor.localPart
  ["@" ++ dispatchFunction ++ ".register(" ++ reference ++ ")",
   "def " ++ name ++ "(value: " ++ reference ++ ") -> str:"] ++
  descriptor.members.flatMap (fun member =>
    ["    if value == " ++ reference ++ "." ++ member ++ ":",
     "        return \"" ++ member ++ "\""]) ++
  ["    return str(value)"]

def dispatcher : List String :=
  ["@singledispatch",
   "def " ++ dispatchFunction ++ "(value) -> str:",
   "    \"\"\"Return the member name of a registered enum value.\"\"\"",
   "    return str(value)"]

def mappingFunctions (descriptors : List Descriptor) : List String :=
  let aliases := moduleAliases descriptors
  (descriptors.zip (functionNames descriptors)).flatMap fun (descriptor, name) =>
    "" :: "" :: mappingFunction descriptor name ((aliases.lookup descriptor.module).getD "")

def extensionsLines (descriptors : List Descriptor) : List String :=
  titled "Fast enum member-name lookups" ++
  ["\"\"\"Member-name lookups for enums marked with @enum_extensions.\"\"\"",
   "",
   "from functools import singledispatch",
   ""] ++
  (moduleAliases descriptors).map (fun (module, name) => "import " ++ module ++ " as " ++ name) ++
  ["", "__all__ = ["] ++
  (dispatchFunction :: functionNames descriptors).map (fun name => "    \"" ++ name ++ "\",") ++
  ["]", "", ""] ++
  dispatcher ++
  mappingFunctions descriptors

def extensionsText (descriptors : List Descriptor) : String :=
  joinLines (extensionsLines descriptors) ++ "\n"

inductive RenderError where
  | noDescriptors
  deriving DecidableEq, Repr

def RenderError.message : RenderError → String
  | noDescriptors => "render_enum_extensions requires at least one descriptor"

def renderExtensions (descriptors : List Descriptor) : Except RenderError String :=
  if descriptors.isEmpty then .error .noDescriptors else .ok (extensionsText descriptors)

end EnumLookup.Package
