import EnumLookup.Declaration.Names
import EnumLookup.Descriptor
import EnumLookup.Text.Blank

/-!
The members of an enum body: which assignments the enum machinery turns into members,
and which names and values it leaves alone.
-/
namespace EnumLookup.Declaration

open Source Text

def startsWithTwo (name : List Char) : Bool := ['_', '_'].isPrefixOf name
def endsWithTwo (name : List Char) : Bool := ['_', '_'].isSuffixOf name

/-- Whether a name can be that of a member: it is not ignored, not private, and not enclosed in
underscores. -/
def isMemberName (name : String) (ignored : List String) : Bool :=
  let chars := name.toList
  if ignored.contains name then false
  else if startsWithTwo chars && endsWithTwo chars then false
  else if 2 < chars.length && chars.head? == some '_' && chars.getLast? == some '_' then false
  else !startsWithTwo chars

/-- Calls that keep their value out of the members. -/
def nonMemberWrappers : List String := ["classmethod", "nonmember", "property", "staticmethod"]

/-- Whether a value can be that of a member. Functions and wrapped values cannot. -/
def isMemberValue : Expr → Bool
  | .lambda _ => false
  | .call function _ =>
    match function.terminalName? with
    | some name => !nonMemberWrappers.contains name
    | none => true
  | _ => true

def ignoreName : String := "_ignore_"

def isSeparator : CodePoint → Bool
  | .scalar c => c == ',' || isBlank c
  | .surrogate _ => false

/-- The longest pieces without a separator, empty ones left out. -/
def pieces : List CodePoint → List (List CodePoint)
  | [] => []
  | point :: rest =>
    if isSeparator point then pieces rest
    else match rest, pieces rest with
      | next :: _, piece :: more =>
        if isSeparator next then [point] :: piece :: more else (point :: piece) :: more
      | _, more => [point] :: more

/-- Names in a text, with commas or blanks between them. No name holds a surrogate. -/
def namesInText (text : SourceText) : List String :=
  (pieces text.points).filterMap fun piece => SourceText.toString? ⟨piece⟩

def namesInElements (elements : List Expr) : List String :=
  elements.filterMap fun
    | .text value => value.toString?
    | _ => none

/-- The names that a value lists: a string of names, or a list or tuple of strings. -/
def listedNames? : Expr → Option (List String)
  | .text value => some (namesInText value)
  | .list elements => some (namesInElements elements)
  | .tuple elements => some (namesInElements elements)
  | _ => none

def isName (id : String) : Expr → Bool
  | .name other => other == id
  | _ => false

/-- The names to be left alone: those that the first assignment to `_ignore_` with a list of names
gives. -/
def ignoredNames : List Stmt → List String
  | [] => []
  | .assign targets value :: rest =>
    if targets.any (isName ignoreName) then (listedNames? value).getD (ignoredNames rest)
    else ignoredNames rest
  | _ :: rest => ignoredNames rest

/-- What a statement adds to the members. Functions, classes and annotations without a value add
names that are no constants. -/
def statementMembers (ignored : List String) : Stmt → List Member
  | .functionDef name _ _ => [⟨name, false⟩]
  | .classDef header _ => [⟨header.name, false⟩]
  | .assign targets value =>
    (targets.flatMap Expr.targetNames).map fun name =>
      ⟨name, isMemberValue value && isMemberName name ignored⟩
  | .annotated (.name id) _ none => [⟨id, false⟩]
  | .annotated (.name id) _ (some value) =>
    [⟨id, isMemberValue value && isMemberName id ignored⟩]
  | _ => []

/-- Every name that an enum body binds, in order. -/
def members (body : List Stmt) : List Member :=
  body.flatMap (statementMembers (ignoredNames body))

end EnumLookup.Declaration
