import EnumLookup.Proofs.Package.Rendering
import Mathlib.Data.List.Nodup

/-!
The names of the unit of lookup functions. What stands behind the last underscore of a name tells
the names apart: it is a number for an alias and for a function whose base name was asked for
before, and a word for every other name.
-/
namespace EnumLookup

open Text

namespace Package

variable {d e : Descriptor} {ds : List Descriptor}

def lastPiece (mark : Char) (text : String) : String :=
  String.ofList ((text.toList.splitOn mark).getLastD [])

theorem lastPiece_eq {mark : Char} {text : String} {front back : List Char}
    (whole : text.toList = front ++ mark :: back) (free : mark ∉ back) :
    lastPiece mark text = String.ofList back := by
  rw [lastPiece, whole, List.splitOn_append_cons_self, List.splitOn_eq_singleton free,
    List.getLastD_concat]

theorem lastPiece_underscore (front : String) {back : String} (free : '_' ∉ back.toList) :
    lastPiece '_' (front ++ "_" ++ back) = back := by
  have whole : (front ++ "_" ++ back).toList = front.toList ++ '_' :: back.toList := by simp
  rw [lastPiece_eq whole free, String.ofList_toList]

theorem not_mem_decimal {mark : Char} (other : mark.isDigit = false) (n : Nat) :
    mark ∉ (decimal n).toList := by
  intro member
  rw [isDigit_of_mem_decimal member] at other
  cases other

def isNumeral (text : String) : Bool := text ≠ "" && text.toList.all Char.isDigit

@[simp] theorem isNumeral_decimal (n : Nat) : isNumeral (decimal n) = true := by
  have digits : (decimal n).toList.all Char.isDigit = true :=
    List.all_eq_true.mpr fun _ => isDigit_of_mem_decimal
  have some : decimal n ≠ "" := by simp [decimal, Nat.toDigits_ne_nil]
  simp [isNumeral, digits, some]

@[simp] theorem lastPiece_aliasOf (index : Nat) : lastPiece '_' (aliasOf index) = decimal index :=
  lastPiece_underscore "_module" (not_mem_decimal (by decide) index)

@[simp] theorem lastPiece_baseName (d : Descriptor) : lastPiece '_' (baseName d) = "fast" := by
  have whole : baseName d = flatName d.qualifiedName ++ "_to_string" ++ "_" ++ "fast" := by
    simp [baseName, dispatchFunction, String.append_assoc]
  rw [whole]
  exact lastPiece_underscore _ (by decide)

theorem numbered_one (base : String) : numbered base 1 = base := if_pos rfl

theorem numbered_later (base : String) {n : Nat} (later : n ≠ 1) :
    numbered base n = base ++ "_" ++ decimal n := if_neg later

@[simp] theorem lastPiece_later (base : String) {n : Nat} :
    lastPiece '_' (base ++ "_" ++ decimal n) = decimal n :=
  lastPiece_underscore base (not_mem_decimal (by decide) n)

theorem isNumeral_numbered (d : Descriptor) {n : Nat} :
    isNumeral (lastPiece '_' (numbered (baseName d) n)) = decide (n ≠ 1) := by
  by_cases first : n = 1
  · subst first
    rw [numbered_one, lastPiece_baseName]
    decide
  · simp [numbered_later _ first, first]

/-- A base name and its occurrence can be read off a function name. -/
theorem numbered_unique {m n : Nat}
    (same : numbered (baseName d) m = numbered (baseName e) n) :
    baseName d = baseName e ∧ m = n := by
  have kind := congrArg (fun name => isNumeral (lastPiece '_' name)) same
  simp only [isNumeral_numbered, decide_eq_decide] at kind
  by_cases first : m = 1
  · have alsoFirst : n = 1 := by omega
    subst first alsoFirst
    exact ⟨by simpa [numbered_one] using same, rfl⟩
  · rw [numbered_later _ first, numbered_later _ (kind.mp first)] at same
    have number := congrArg (lastPiece '_') same
    rw [lastPiece_later, lastPiece_later] at number
    obtain rfl := decimal_injective number
    rw [String.append_left_inj, String.append_left_inj] at same
    exact ⟨same, rfl⟩

/-- A function gets a number that none asked for before with the same base name has. -/
theorem mem_functionNamesAfter {asked : List String} {name : String}
    (member : name ∈ functionNamesAfter asked ds) :
    ∃ d ∈ ds, ∃ n, asked.count (baseName d) < n ∧ name = numbered (baseName d) n := by
  induction ds generalizing asked with
  | nil => cases member
  | cons d rest ih =>
    rcases List.mem_cons.mp member with rfl | later
    · exact ⟨d, List.mem_cons_self .., _, Nat.lt_succ_self _, rfl⟩
    · obtain ⟨e, inside, n, more, named⟩ := ih later
      have fewer : asked.count (baseName e) ≤ (baseName d :: asked).count (baseName e) :=
        List.count_le_count_cons
      exact ⟨e, List.mem_cons_of_mem _ inside, n, by omega, named⟩

theorem functionNamesAfter_nodup (asked : List String) (ds : List Descriptor) :
    (functionNamesAfter asked ds).Nodup := by
  induction ds generalizing asked with
  | nil => exact List.nodup_nil
  | cons d rest ih =>
    apply List.nodup_cons.mpr
    refine ⟨?_, ih _⟩
    intro again
    obtain ⟨e, -, n, more, same⟩ := mem_functionNamesAfter again
    obtain ⟨base, rfl⟩ := numbered_unique same
    rw [← base, List.count_cons_self] at more
    omega

def fixedNames : List String := [dispatchFunction, "singledispatch", "str", "__all__"]

def aliases (ds : List Descriptor) : List String := (moduleAliases ds).map (·.2)

theorem aliases_eq (ds : List Descriptor) :
    aliases ds = (List.range (modules ds).length).map aliasOf := by
  apply List.ext_getElem <;> simp [aliases, moduleAliases]

theorem aliases_nodup (ds : List Descriptor) : (aliases ds).Nodup := by
  rw [aliases_eq]
  exact List.nodup_range.map aliasOf_injective

theorem isNumeral_of_mem_aliases {name : String} (member : name ∈ aliases ds) :
    isNumeral (lastPiece '_' name) = true := by
  rw [aliases_eq] at member
  obtain ⟨index, -, rfl⟩ := List.mem_map.mp member
  simp

theorem isNumeral_of_mem_fixedNames {name : String} (member : name ∈ fixedNames) :
    isNumeral (lastPiece '_' name) = false := by
  revert name
  decide

theorem numbered_not_fixed {n : Nat} : numbered (baseName d) n ∉ fixedNames := by
  intro fixed
  by_cases first : n = 1
  · subst first
    rw [numbered_one] at fixed
    have words : ∀ name ∈ fixedNames, lastPiece '_' name = "fast" → name.length ≤ 14 := by decide
    have short := words _ fixed (lastPiece_baseName d)
    have long : (baseName d).length = (flatName d.qualifiedName).length + 1 + 14 := by
      rw [baseName, String.length_append, String.length_append]
      rfl
    omega
  · have number := isNumeral_numbered d (n := n)
    simp [isNumeral_of_mem_fixedNames fixed, first] at number

theorem numbered_not_alias {n : Nat} : numbered (baseName d) n ∉ aliases ds := by
  intro aliased
  have number := isNumeral_of_mem_aliases aliased
  rw [isNumeral_numbered, decide_eq_true_eq] at number
  rw [numbered_later _ number, aliases_eq] at aliased
  obtain ⟨index, -, same⟩ := List.mem_map.mp aliased
  have piece := congrArg (lastPiece '_') same
  rw [lastPiece_aliasOf, lastPiece_later] at piece
  rw [aliasOf, piece] at same
  have label : "_module" ++ "_" = baseName d ++ "_" := (String.append_left_inj _).mp same
  have base := congrArg (lastPiece '_') ((String.append_left_inj _).mp label)
  rw [lastPiece_baseName] at base
  revert base
  decide

theorem names_nodup (ds : List Descriptor) :
    (fixedNames ++ functionNames ds ++ aliases ds).Nodup := by
  have named {name : String} (member : name ∈ functionNames ds) :
      ∃ d n, name = numbered (baseName d) n := by
    obtain ⟨d, -, n, -, same⟩ := mem_functionNamesAfter member
    exact ⟨d, n, same⟩
  rw [List.nodup_append, List.nodup_append]
  refine ⟨⟨by decide, functionNamesAfter_nodup [] ds, ?_⟩, aliases_nodup ds, ?_⟩
  · rintro name fixed _ member rfl
    obtain ⟨d, n, rfl⟩ := named member
    exact numbered_not_fixed fixed
  · rintro name inside _ member rfl
    rcases List.mem_append.mp inside with fixed | function
    · have number := isNumeral_of_mem_aliases member
      rw [isNumeral_of_mem_fixedNames fixed] at number
      cases number
    · obtain ⟨d, n, rfl⟩ := named function
      exact numbered_not_alias member

theorem eraseDups_nodup (names : List String) : names.eraseDups.Nodup := by
  cases names with
  | nil => exact List.nodup_nil
  | cons first rest =>
    rw [List.eraseDups_cons, List.nodup_cons]
    refine ⟨by simp [List.mem_eraseDups], ?_⟩
    exact eraseDups_nodup (rest.filter fun name => !name == first)
termination_by names.length
decreasing_by exact Nat.lt_succ_of_le (List.length_filter_le ..)

theorem modules_nodup (ds : List Descriptor) : (modules ds).Nodup :=
  (List.mergeSort_perm ..).nodup_iff.mpr (eraseDups_nodup _)

theorem mem_modules {module : String} : module ∈ modules ds ↔ ∃ d ∈ ds, d.module = module := by
  rw [modules, sortedDistinct, List.mem_mergeSort, List.mem_eraseDups, List.mem_map]

theorem map_fst_moduleAliases (ds : List Descriptor) : (moduleAliases ds).map (·.1) = modules ds := by
  apply List.ext_getElem <;> simp [moduleAliases]

/-- What the function of one enum is written from: the enum, the name of the function and the alias
in front of the enum's references. -/
structure Lookup where
  descriptor : Descriptor
  name : String
  moduleAlias : String

namespace Lookup

def reference (lookup : Lookup) : String := lookup.moduleAlias ++ lookup.descriptor.localPart

def lines (lookup : Lookup) : List String :=
  ("@" ++ dispatchFunction ++ ".register(" ++ lookup.reference ++ ")") ::
  ("def " ++ lookup.name ++ "(value: " ++ lookup.reference ++ ") -> str:") ::
  (clauses lookup.reference lookup.descriptor.members ++ [fallback])

end Lookup

def lookups (ds : List Descriptor) : List Lookup :=
  (ds.zip (functionNames ds)).map fun (descriptor, name) =>
    ⟨descriptor, name, ((moduleAliases ds).lookup descriptor.module).getD ""⟩

theorem mappingFunctions_lookups (ds : List Descriptor) :
    mappingFunctions ds = (lookups ds).flatMap fun lookup => "" :: "" :: lookup.lines := by
  rw [lookups, List.flatMap_map]
  rfl

theorem map_descriptor_lookups (ds : List Descriptor) : (lookups ds).map (·.descriptor) = ds := by
  rw [lookups, List.map_map]
  exact map_fst_zip_functionNames ds

theorem map_name_lookups (ds : List Descriptor) :
    (lookups ds).map (·.name) = functionNames ds := by
  rw [lookups, List.map_map]
  exact List.map_snd_zip (Nat.le_of_eq (length_functionNamesAfter [] ds))

theorem aliased_of_mem_lookups {l : Lookup} (member : l ∈ lookups ds) :
    (l.descriptor.module, l.moduleAlias) ∈ moduleAliases ds := by
  obtain ⟨⟨d, name⟩, inside, rfl⟩ := List.mem_map.mp member
  obtain ⟨index, there, found⟩ :=
    lookup_mapIdx aliasOf (module_mem_modules (List.of_mem_zip inside).1)
  have aliased : (moduleAliases ds).lookup d.module = some (aliasOf index) := found
  simp only [aliased, Option.getD_some]
  obtain ⟨bound, same⟩ := List.getElem?_eq_some_iff.mp there
  exact List.mem_mapIdx.mpr ⟨index, bound, by rw [same]⟩

/-- The name that a line binds at the margin: an import binds its last word, a definition and an
assignment the name that they begin with. Names are taken as they are written; a compiler compares
them after compatibility composition, so that it may take two of them for one. -/
def boundName? (line : String) : Option String :=
  let leading (chars : List Char) := String.ofList (chars.takeWhile Identifier.isContinue)
  let chars := line.toList
  if "import ".toList <+: chars ∨ "from ".toList <+: chars then some (lastPiece ' ' line)
  else if "def ".toList <+: chars then some (leading (chars.drop 4))
  else if " = ".toList <+: chars.dropWhile Identifier.isContinue ∧ leading chars ≠ "" then
    some (leading chars)
  else none

def boundNames (text : String) : List String :=
  ((text.toList.splitOn '\n').map String.ofList).filterMap boundName?

def importedAlias? (line : String) : Option String :=
  if "import ".toList <+: line.toList then boundName? line else none

theorem boundName?_import (module : String) (index : Nat) :
    boundName? ("import " ++ module ++ " as " ++ aliasOf index) = some (aliasOf index) := by
  have whole : ("import " ++ module ++ " as " ++ aliasOf index).toList =
      ("import " ++ module ++ " as").toList ++ ' ' :: (aliasOf index).toList := by simp
  have free : ' ' ∉ (aliasOf index).toList := by
    simpa [aliasOf] using not_mem_decimal (by decide : ' '.isDigit = false) index
  have word := lastPiece_eq whole free
  rw [String.ofList_toList] at word
  simp [boundName?, word]

theorem boundName?_def {line name : String} {rest : List Char}
    (whole : line.toList = "def ".toList ++ (name.toList ++ '(' :: rest))
    (identifier : ∀ c ∈ name.toList, Identifier.isContinue c = true) :
    boundName? line = some name := by
  have stop : Identifier.isContinue '(' = false := by decide
  have leading : List.takeWhile Identifier.isContinue (name.toList ++ '(' :: rest) =
      name.toList := by
    rw [List.takeWhile_append_of_pos identifier, List.takeWhile_cons_of_neg (by simp [stop]),
      List.append_nil]
  simp [boundName?, whole, leading]

/-- A line that does not begin like a name binds nothing. -/
theorem boundName?_eq_none {line : String} {c : Char} {rest : List Char}
    (whole : line.toList = c :: rest) (mark : Identifier.isContinue c = false) :
    boundName? line = none := by
  have differs {letter : Char} (letters : Identifier.isContinue letter = true) : letter ≠ c := by
    rintro rfl
    rw [mark] at letters
    cases letters
  have i : 'i' ≠ c := differs (by decide)
  have f : 'f' ≠ c := differs (by decide)
  have d : 'd' ≠ c := differs (by decide)
  simp [boundName?, whole, mark, i, f, d]

theorem importedAlias?_eq_none {line : String} (unbound : boundName? line = none) :
    importedAlias? line = none := by
  rw [importedAlias?, unbound, ite_self]

theorem clauses_bind (reference : String) (members : List String) :
    ∀ line ∈ clauses reference members ++ [fallback], boundName? line = none := by
  intro line member
  rcases List.mem_append.mp member with inClauses | last
  · obtain ⟨m, -, inClause⟩ := List.mem_flatMap.mp inClauses
    simp only [List.mem_cons, List.not_mem_nil, or_false] at inClause
    rcases inClause with rfl | rfl
    · exact boundName?_eq_none (by simp; rfl) (by decide : Identifier.isContinue ' ' = false)
    · exact boundName?_eq_none (by simp; rfl) (by decide : Identifier.isContinue ' ' = false)
  · rw [List.mem_singleton.mp last]
    decide

theorem unbound_registration (rest : String) :
    boundName? ("@" ++ dispatchFunction ++ ".register(" ++ rest) = none :=
  boundName?_eq_none (by simp; rfl) (by decide : Identifier.isContinue '@' = false)

theorem nameLines_bind : ∀ line ∈ nameLines ds, boundName? line = none := by
  intro line member
  obtain ⟨name, -, rfl⟩ := List.mem_map.mp member
  exact boundName?_eq_none (by simp; rfl) (by decide : Identifier.isContinue ' ' = false)

theorem importLines_bind (ds : List Descriptor) :
    (importLines (modules ds)).filterMap boundName? = aliases ds := by
  have reads : ∀ entry ∈ moduleAliases ds,
      boundName? ("import " ++ entry.1 ++ " as " ++ entry.2) = some entry.2 := by
    intro entry member
    obtain ⟨index, inside, rfl⟩ := List.mem_mapIdx.mp member
    exact boundName?_import _ index
  rw [importLines, List.filterMap_map, aliases, ← List.filterMap_eq_map]
  exact List.filterMap_congr reads

theorem imported_importLines (ds : List Descriptor) :
    (importLines (modules ds)).filterMap importedAlias? = aliases ds := by
  rw [← importLines_bind]
  apply List.filterMap_congr
  intro line member
  obtain ⟨entry, -, rfl⟩ := List.mem_map.mp member
  simp [importedAlias?]

def opening : List String :=
  titled "Fast enum member-name lookups" ++
    ["\"\"\"Member-name lookups for enums marked with @enum_extensions.\"\"\"",
     "",
     "from functools import singledispatch",
     ""]

theorem extensionsLines_parts (ds : List Descriptor) : extensionsLines ds =
    opening ++ importLines (modules ds) ++ ["", "__all__ = ["] ++ nameLines ds ++
      ("]" :: "" :: "" :: dispatcher) ++ mappingFunctions ds := by
  simp [extensionsLines_eq, opening]

/-- Only the lines that import modules import anything under an alias. -/
theorem imported_extensionsLines (ds : List Descriptor) :
    (extensionsLines ds).filterMap importedAlias? = aliases ds := by
  have functions : (mappingFunctions ds).filterMap importedAlias? = [] := by
    rw [mappingFunctions_lookups, List.filterMap_eq_nil_iff]
    intro line member
    obtain ⟨l, -, inFunction⟩ := List.mem_flatMap.mp member
    simp only [Lookup.lines, List.mem_cons] at inFunction
    rcases inFunction with rfl | rfl | rfl | rfl | inClauses
    · decide
    · decide
    · apply importedAlias?_eq_none
      rw [String.append_assoc]
      exact unbound_registration _
    · simp [importedAlias?]
    · exact importedAlias?_eq_none (clauses_bind _ _ line inClauses)
  have names : (nameLines ds).filterMap importedAlias? = [] :=
    List.filterMap_eq_nil_iff.mpr fun line member =>
      importedAlias?_eq_none (nameLines_bind line member)
  have front : opening.filterMap importedAlias? = [] := by decide
  have between : ["", "__all__ = ["].filterMap importedAlias? = [] := by decide
  have dispatch : ("]" :: "" :: "" :: dispatcher).filterMap importedAlias? = [] := by decide
  simp only [extensionsLines_parts, List.filterMap_append, imported_importLines, names, functions,
    front, between, dispatch, List.nil_append, List.append_nil]

theorem isContinue_of_isDigit {c : Char} (digit : c.isDigit = true) :
    Identifier.isContinue c = true := by
  have range : 48 ≤ c.toNat ∧ c.toNat ≤ 57 := by
    simpa [Char.isDigit, UInt32.le_iff_toNat_le] using digit
  have ascii : c.toNat < 128 := by omega
  simp [Identifier.isContinue, ascii, Char.isAlphanum, digit]

theorem continues_of_spelled {name : String}
    (identifiers : (Dotted.components name).all Identifier.isIdentifier = true) {c : Char}
    (member : c ∈ name.toList) : c = '.' ∨ Identifier.isContinue c = true := by
  rcases mem_splitDots member with dot | ⟨part, inParts, inPart⟩
  · exact .inl dot
  · have identifier := List.all_eq_true.mp identifiers (String.ofList part)
      (List.mem_map.mpr ⟨part, inParts, rfl⟩)
    exact .inr (isContinue_of_mem identifier (by simpa using inPart))

theorem baseName_continues (spelled : d.Spelled) :
    ∀ c ∈ (baseName d).toList, Identifier.isContinue c = true := by
  have underscore : Identifier.isContinue '_' = true := by decide
  have word : dispatchFunction.toList.all Identifier.isContinue = true := by decide
  intro c member
  simp only [baseName, flatName, String.toList_append, String.toList_ofList, List.mem_append,
    List.mem_map] at member
  rcases member with (⟨letter, inName, rfl⟩ | isUnderscore) | inWord
  · split
    · exact underscore
    · next noDot =>
      exact (continues_of_spelled (spelled d.qualifiedName (by simp)) inName).resolve_left noDot
  · obtain rfl : c = '_' := by simpa using isUnderscore
    exact underscore
  · exact List.all_eq_true.mp word c inWord

theorem functionName_continues (spelled : ∀ d ∈ ds, d.Spelled) :
    ∀ name ∈ functionNames ds, ∀ c ∈ name.toList, Identifier.isContinue c = true := by
  intro name member c inName
  obtain ⟨d, inside, n, -, rfl⟩ := mem_functionNamesAfter member
  have base := baseName_continues (spelled d inside)
  by_cases first : n = 1
  · subst first
    exact base c (by simpa [numbered_one] using inName)
  · rw [numbered_later _ first, String.toList_append, String.toList_append, List.mem_append,
      List.mem_append] at inName
    rcases inName with (inBase | isUnderscore) | inNumber
    · exact base c inBase
    · obtain rfl : c = '_' := by simpa using isUnderscore
      decide
    · exact isContinue_of_isDigit (isDigit_of_mem_decimal inNumber)

/-- The names that the unit binds are those of the table of aliases, of the dispatcher and of the
functions. -/
theorem boundNames_extensionsText (spelled : ∀ d ∈ ds, d.Spelled) :
    boundNames (extensionsText ds) =
      "singledispatch" :: (aliases ds ++ "__all__" :: dispatchFunction :: functionNames ds) := by
  have some : extensionsLines ds ≠ [] := by
    rw [extensionsLines_eq]
    simp
  have lines := splitOn_joinLines some
    (oneLine_extensionsLines fun d member => (spelled d member).oneLine)
  have names : (nameLines ds).filterMap boundName? = [] :=
    List.filterMap_eq_nil_iff.mpr nameLines_bind
  have functions : (mappingFunctions ds).filterMap boundName? = functionNames ds := by
    have function : ∀ l ∈ lookups ds,
        ("" :: "" :: l.lines).filterMap boundName? = [l.name] := by
      intro l member
      have continues := functionName_continues spelled l.name (by
        rw [← map_name_lookups]
        exact List.mem_map_of_mem member)
      have clauses := List.filterMap_eq_nil_iff.mpr
        (clauses_bind l.reference l.descriptor.members)
      have named : boundName? ("def " ++ l.name ++ "(value: " ++ l.reference ++ ") -> str:") =
          l.name :=
        boundName?_def (by simp; rfl) continues
      have registration : boundName? ("@" ++ dispatchFunction ++ ".register(" ++ l.reference ++ ")") =
          none := by
        rw [String.append_assoc]
        exact unbound_registration _
      have empty : boundName? "" = none := by decide
      simp only [Lookup.lines, List.filterMap_cons, empty, registration, named, clauses]
    rw [mappingFunctions_lookups, List.filterMap_flatMap, List.flatMap_congr function,
      ← map_name_lookups, List.map_eq_flatMap]
  have whole : (extensionsText ds).toList = (joinLines (extensionsLines ds)).toList ++ '\n' :: [] := by
    simp [extensionsText]
  have front : opening.filterMap boundName? = ["singledispatch"] := by decide
  have between : ["", "__all__ = ["].filterMap boundName? = ["__all__"] := by decide
  have dispatch : ("]" :: "" :: "" :: dispatcher).filterMap boundName? = [dispatchFunction] := by
    decide
  have last : [""].filterMap boundName? = [] := by decide
  have read : ((extensionsLines ds).map String.toList ++ List.splitOn '\n' []).map String.ofList =
      extensionsLines ds ++ [""] := by simp
  rw [boundNames, whole, List.splitOn_append_cons_self, lines, read]
  simp only [extensionsLines_parts, List.filterMap_append, importLines_bind, names, functions,
    front, between, dispatch, last]
  simp

theorem imported_of_mem_lookups {l : Lookup} (member : l ∈ lookups ds) :
    l.moduleAlias ∈ aliases ds :=
  List.mem_map.mpr ⟨_, aliased_of_mem_lookups member, rfl⟩

theorem exists_lookup_of_mem_aliases {name : String} (member : name ∈ aliases ds) :
    ∃ l ∈ lookups ds, l.moduleAlias = name := by
  obtain ⟨⟨module, _⟩, entry, rfl⟩ := List.mem_map.mp member
  have known : module ∈ modules ds := by
    rw [← map_fst_moduleAliases]
    exact List.mem_map_of_mem entry
  obtain ⟨d, inside, rfl⟩ := mem_modules.mp known
  rw [← map_descriptor_lookups ds] at inside
  obtain ⟨l, isLookup, rfl⟩ := List.mem_map.mp inside
  have keys : ((moduleAliases ds).map (·.1)).Nodup := by
    rw [map_fst_moduleAliases]
    exact modules_nodup ds
  have same := List.inj_on_of_nodup_map keys (aliased_of_mem_lookups isLookup) entry rfl
  exact ⟨l, isLookup, (Prod.mk.inj same).2⟩

/-- The names of the unit are apart, the enums and their modules have one each, and the unit
imports what its functions refer to and nothing else. -/
structure NamesApart (ds : List Descriptor) : Prop where
  apart : (fixedNames ++ functionNames ds ++ aliases ds).Nodup
  oneEach : (functionNames ds).length = ds.length
  modules : ((moduleAliases ds).map (·.1)).Nodup ∧
    ∀ module, module ∈ (moduleAliases ds).map (·.1) ↔ ∃ d ∈ ds, d.module = module
  /-- Every function refers to its enum under one alias. -/
  functions : mappingFunctions ds = (lookups ds).flatMap (fun l => "" :: "" :: l.lines) ∧
    (lookups ds).map (·.descriptor) = ds ∧ (lookups ds).map (·.name) = functionNames ds
  imports : (extensionsLines ds).filterMap importedAlias? = aliases ds
  importedOnce : ∀ l ∈ lookups ds, (l.descriptor.module, l.moduleAlias) ∈ moduleAliases ds ∧
    (aliases ds).count l.moduleAlias = 1
  importedUsed : ∀ name ∈ aliases ds, ∃ l ∈ lookups ds, l.moduleAlias = name
  /-- There are no other names at the margin of the text. -/
  bound : (∀ d ∈ ds, d.Spelled) → ∀ text, renderExtensions ds = .ok text →
    boundNames text =
      "singledispatch" :: (aliases ds ++ "__all__" :: dispatchFunction :: functionNames ds)

/-- Whatever the enums are, no name of the unit hides another one. -/
theorem extensions_names_apart (ds : List Descriptor) : NamesApart ds := by
  refine ⟨names_nodup ds, length_functionNamesAfter [] ds, ⟨?_, ?_⟩,
    ⟨mappingFunctions_lookups ds, map_descriptor_lookups ds, map_name_lookups ds⟩,
    imported_extensionsLines ds, ?_, fun _ => exists_lookup_of_mem_aliases, ?_⟩
  · rw [map_fst_moduleAliases]
    exact modules_nodup ds
  · intro module
    rw [map_fst_moduleAliases]
    exact mem_modules
  · intro l member
    have once := List.count_eq_one_of_mem (aliases_nodup ds) (imported_of_mem_lookups member)
    exact ⟨aliased_of_mem_lookups member, once⟩
  · intro spelled text rendered
    obtain ⟨-, rfl⟩ := renderExtensions_eq_ok.mp rendered
    exact boundNames_extensionsText spelled

theorem extensions_names_apart_homographs :
    (∀ d ∈ homographs, d.Spelled) ∧ ∃ text, renderExtensions homographs = .ok text ∧
      boundNames text = ["singledispatch", "_module_0", "_module_1", "__all__", "to_string_fast",
        "a_b_C_to_string_fast", "a_b_C_to_string_fast_2", "a_b_C_to_string_fast_3"] := by
  have spelled : ∀ d ∈ homographs, d.Spelled := by decide +kernel
  refine ⟨spelled, _, rfl, ?_⟩
  have bound := (extensions_names_apart homographs).bound spelled _ rfl
  have aliases : aliases homographs = ["_module_0", "_module_1"] := by
    have two : (modules homographs).length = 2 := by
      rw [modules, sortedDistinct, List.length_mergeSort]
      decide
    rw [aliases_eq, two]
    decide
  have names : functionNames homographs =
      ["a_b_C_to_string_fast", "a_b_C_to_string_fast_2", "a_b_C_to_string_fast_3"] := by decide
  rw [bound, aliases, names]
  rfl

end Package

end EnumLookup
