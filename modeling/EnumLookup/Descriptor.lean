import EnumLookup.Text.Quoted

/-!
Descriptors: what must be known of an enum to write its lookup function. The name of
the enum lies inside its module, which is part of the type.
-/
namespace EnumLookup

/-- A member of a class body, and whether the enum machinery makes it an enum member. -/
structure Member where
  name : String
  isConstant : Bool
  deriving DecidableEq, Repr

/-- Whether a dotted name names something in a module. -/
def isInside (module name : String) : Bool :=
  module ≠ "" && (module.toList ++ ['.']).isPrefixOf name.toList

structure Descriptor where
  qualifiedName : String
  module : String
  /-- Member names in declaration order; repeated names are kept. -/
  members : List String
  inside : isInside module qualifiedName = true
  deriving DecidableEq, Repr

inductive DescriptorError where
  | emptyName
  | outside (qualifiedName module : String)
  deriving DecidableEq, Repr

def DescriptorError.message : DescriptorError → String
  | emptyName => "qualified_name must not be empty"
  | outside qualifiedName module =>
    "qualified_name " ++ Text.quoted qualifiedName ++ " is not inside module " ++
      Text.quoted module

namespace Descriptor

def make (qualifiedName module : String) (members : List String) :
    Except DescriptorError Descriptor :=
  if qualifiedName = "" then .error .emptyName
  else if inside : isInside module qualifiedName = true then
    .ok ⟨qualifiedName, module, members, inside⟩
  else .error (.outside qualifiedName module)

def localPart (descriptor : Descriptor) : String :=
  String.ofList (descriptor.qualifiedName.toList.drop descriptor.module.length)

theorem make_ok {qualifiedName module : String} {members : List String}
    (inside : isInside module qualifiedName = true) :
    make qualifiedName module members = .ok ⟨qualifiedName, module, members, inside⟩ := by
  have nonempty : qualifiedName ≠ "" := by
    rintro rfl
    simp [isInside] at inside
  simp [make, nonempty, inside]

end Descriptor

end EnumLookup
