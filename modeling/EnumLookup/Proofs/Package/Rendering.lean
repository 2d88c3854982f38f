import EnumLookup.Package.Extensions
import EnumLookup.Proofs.Text.Lines

/-!
Rendering loses nothing. Modules are named once, in the table of aliases, and the references of the
functions point into the table; function names say less than references do. The lines of the unit
can be taken apart again from the front: the table ends at the first empty line, the list of names
at its bracket, and each function at the line that falls back to the plain text of the value.
-/
namespace EnumLookup

open Text

/-- No name of the descriptor runs over a line. -/
def Descriptor.OneLine (d : Descriptor) : Prop :=
  ∀ name ∈ d.module :: d.qualifiedName :: d.members, Text.OneLine name

instance (d : Descriptor) : Decidable d.OneLine :=
  inferInstanceAs (Decidable (∀ name ∈ _, Text.OneLine name))

/-- The names of the descriptor are identifiers with dots between them. -/
def Descriptor.Spelled (d : Descriptor) : Prop :=
  ∀ name ∈ d.module :: d.qualifiedName :: d.members,
    (Dotted.components name).all Identifier.isIdentifier = true

instance (d : Descriptor) : Decidable d.Spelled :=
  inferInstanceAs (Decidable (∀ name ∈ _, (Dotted.components name).all _ = true))

theorem Descriptor.Spelled.oneLine {d : Descriptor} (spelled : d.Spelled) : d.OneLine :=
  fun name member => oneLine_of_identifiers (spelled name member)

theorem Descriptor.toList_localPart (d : Descriptor) : ∃ rest,
    d.qualifiedName.toList = d.module.toList ++ '.' :: rest ∧ d.localPart.toList = '.' :: rest := by
  have inside := d.inside
  simp only [isInside, Bool.and_eq_true, List.isPrefixOf_iff_prefix] at inside
  obtain ⟨rest, whole⟩ := inside.2
  refine ⟨rest, by simp [← whole], ?_⟩
  rw [localPart, String.toList_ofList, ← whole, ← String.length_toList]
  simp

namespace Package

variable {d e : Descriptor} {ds es : List Descriptor}

/-- A list is cut in one way only at the first place where a mark stands. -/
theorem cut_unique {α : Type} {mark : α} {front other back rest : List α} (free : mark ∉ front)
    (alsoFree : mark ∉ other) (same : front ++ mark :: back = other ++ mark :: rest) :
    front = other ∧ back = rest := by
  induction front generalizing other with
  | nil =>
    cases other with
    | nil => exact ⟨rfl, (List.cons.inj same).2⟩
    | cons first others =>
      obtain ⟨rfl, -⟩ := List.cons.inj same
      exact absurd (List.mem_cons_self ..) alsoFree
  | cons first front ih =>
    cases other with
    | nil =>
      obtain ⟨rfl, -⟩ := List.cons.inj same
      exact absurd (List.mem_cons_self ..) free
    | cons second others =>
      obtain ⟨rfl, others⟩ := List.cons.inj same
      obtain ⟨rfl, rfl⟩ := ih (fun inside => free (List.mem_cons_of_mem _ inside))
        (fun inside => alsoFree (List.mem_cons_of_mem _ inside)) others
      exact ⟨rfl, rfl⟩

def clauses (reference : String) (members : List String) : List String :=
  members.flatMap fun member =>
    ["    if value == " ++ reference ++ "." ++ member ++ ":",
     "        return \"" ++ member ++ "\""]

def fallback : String := "    return str(value)"

theorem mappingFunction_eq (d : Descriptor) (name moduleAlias : String) :
    mappingFunction d name moduleAlias =
      ("@" ++ dispatchFunction ++ ".register(" ++ (moduleAlias ++ d.localPart) ++ ")") ::
      ("def " ++ name ++ "(value: " ++ (moduleAlias ++ d.localPart) ++ ") -> str:") ::
      (clauses (moduleAlias ++ d.localPart) d.members ++ [fallback]) := rfl

theorem clause_ne_fallback (rest : String) : "    if value == " ++ rest ≠ fallback := by
  intro same
  have fifth := congrArg (fun text => text.toList[4]?) same
  simp [fallback] at fifth

theorem clauses_unique {reference other : String} {members others rest more : List String}
    (same : clauses reference members ++ fallback :: rest =
      clauses other others ++ fallback :: more) :
    members = others ∧ rest = more := by
  induction members generalizing others with
  | nil =>
    cases others with
    | nil => exact ⟨rfl, (List.cons.inj same).2⟩
    | cons member others =>
      have first := (List.cons.inj same).1
      rw [String.append_assoc, String.append_assoc, String.append_assoc] at first
      exact absurd first.symm (clause_ne_fallback _)
  | cons member members ih =>
    cases others with
    | nil =>
      have first := (List.cons.inj same).1
      rw [String.append_assoc, String.append_assoc, String.append_assoc] at first
      exact absurd first (clause_ne_fallback _)
    | cons second others =>
      simp only [clauses, List.flatMap_cons, List.cons_append, List.cons.injEq] at same
      obtain ⟨-, returned, lines⟩ := same
      obtain ⟨rfl, rfl⟩ := ih lines
      have named : member = second := by simpa using returned
      exact ⟨by rw [named], rfl⟩

/-- Where a lookup function ends and what it is for can be read off its lines. -/
theorem mappingFunction_unique {name other a b : String} {rest more : List String}
    (same : mappingFunction d name a ++ rest = mappingFunction e other b ++ more) :
    a ++ d.localPart = b ++ e.localPart ∧ d.members = e.members ∧ rest = more := by
  simp only [mappingFunction_eq, List.cons_append, List.append_assoc, List.nil_append,
    List.cons.injEq] at same
  obtain ⟨registered, -, lines⟩ := same
  obtain ⟨members, rest⟩ := clauses_unique lines
  have reference : a ++ d.localPart = b ++ e.localPart := by
    rw [String.append_left_inj] at registered
    exact (String.append_right_inj _).mp registered
  exact ⟨reference, members, rest⟩

theorem dot_not_mem_aliasOf (index : Nat) : '.' ∉ (aliasOf index).toList := by
  rw [aliasOf, String.toList_append, List.mem_append]
  rintro (label | digit)
  · revert label
    decide
  · have isDigit := isDigit_of_mem_decimal digit
    revert isDigit
    decide

theorem aliasOf_injective : Function.Injective aliasOf := by
  intro i j same
  exact decimal_injective ((String.append_right_inj _).mp same)

/-- A reference tells the alias from the name inside the module. -/
theorem reference_unique {i j : Nat}
    (same : aliasOf i ++ d.localPart = aliasOf j ++ e.localPart) :
    i = j ∧ d.localPart = e.localPart := by
  obtain ⟨rest, -, localPart⟩ := d.toList_localPart
  obtain ⟨more, -, otherPart⟩ := e.toList_localPart
  have chars := congrArg String.toList same
  rw [String.toList_append, String.toList_append, localPart, otherPart] at chars
  obtain ⟨front, rest⟩ := cut_unique (dot_not_mem_aliasOf i) (dot_not_mem_aliasOf j) chars
  refine ⟨aliasOf_injective (String.toList_inj.mp front), String.toList_inj.mp ?_⟩
  rw [localPart, otherPart, rest]

theorem lookup_mapIdx {α : Type} [BEq α] [LawfulBEq α] {β : Type} (name : Nat → β) {keys : List α}
    {key : α} (member : key ∈ keys) : ∃ index, keys[index]? = some key ∧
      (keys.mapIdx fun index key => (key, name index)).lookup key = some (name index) := by
  induction keys generalizing name with
  | nil => cases member
  | cons first rest ih =>
    rw [List.mapIdx_cons]
    by_cases same : key = first
    · subst same
      exact ⟨0, rfl, by simp⟩
    · obtain ⟨index, there, found⟩ := ih (fun index => name (index + 1))
        ((List.mem_cons.mp member).resolve_left same)
      have differs : (key == first) = false := by simpa using same
      exact ⟨index + 1, there, by rw [List.lookup_cons, differs]; exact found⟩

theorem module_mem_modules (member : d ∈ ds) : d.module ∈ modules ds := by
  rw [modules, sortedDistinct, List.mem_mergeSort, List.mem_eraseDups]
  exact List.mem_map.mpr ⟨d, member, rfl⟩

def aliasTable (names : List String) : List (String × String) :=
  names.mapIdx fun index module => (module, aliasOf index)

def functionLines (names : List String) (named : List (Descriptor × String)) : List String :=
  named.flatMap fun (descriptor, name) =>
    "" :: "" ::
      mappingFunction descriptor name (((aliasTable names).lookup descriptor.module).getD "")

theorem mappingFunctions_eq (ds : List Descriptor) :
    mappingFunctions ds = functionLines (modules ds) (ds.zip (functionNames ds)) := rfl

theorem descriptor_unique {names : List String} (known : d.module ∈ names)
    (alsoKnown : e.module ∈ names)
    (same : ((aliasTable names).lookup d.module).getD "" ++ d.localPart =
      ((aliasTable names).lookup e.module).getD "" ++ e.localPart)
    (members : d.members = e.members) : d = e := by
  obtain ⟨i, there, found⟩ := lookup_mapIdx aliasOf known
  obtain ⟨j, alsoThere, alsoFound⟩ := lookup_mapIdx aliasOf alsoKnown
  simp only [aliasTable, found, alsoFound, Option.getD_some] at same
  obtain ⟨rfl, localPart⟩ := reference_unique same
  have module : d.module = e.module := Option.some.inj (there.symm.trans alsoThere)
  obtain ⟨rest, whole, inner⟩ := d.toList_localPart
  obtain ⟨more, otherWhole, otherInner⟩ := e.toList_localPart
  have qualifiedName : d.qualifiedName = e.qualifiedName := by
    apply String.toList_inj.mp
    rw [whole, otherWhole, module, ← inner, ← otherInner, localPart]
  cases d
  cases e
  simp only at module qualifiedName members
  simp only [module, qualifiedName, members]

theorem functionLines_unique {names : List String} {named others : List (Descriptor × String)}
    (known : ∀ entry ∈ named, entry.1.module ∈ names)
    (alsoKnown : ∀ entry ∈ others, entry.1.module ∈ names)
    (same : functionLines names named = functionLines names others) :
    named.map (·.1) = others.map (·.1) := by
  induction named generalizing others with
  | nil =>
    cases others with
    | nil => rfl
    | cons entry others => cases same
  | cons entry named ih =>
    cases others with
    | nil => cases same
    | cons other others =>
      obtain ⟨first, known⟩ := List.forall_mem_cons.mp known
      obtain ⟨alsoFirst, alsoKnown⟩ := List.forall_mem_cons.mp alsoKnown
      obtain ⟨-, same⟩ := List.cons.inj same
      obtain ⟨-, same⟩ := List.cons.inj same
      obtain ⟨reference, members, rest⟩ := mappingFunction_unique same
      have descriptor := descriptor_unique first alsoFirst reference members
      rw [List.map_cons, List.map_cons, descriptor, ih known alsoKnown rest]

theorem length_functionNamesAfter (asked : List String) (ds : List Descriptor) :
    (functionNamesAfter asked ds).length = ds.length := by
  induction ds generalizing asked with
  | nil => rfl
  | cons d rest ih => simp only [functionNamesAfter, List.length_cons, ih]

theorem map_fst_zip_functionNames (ds : List Descriptor) :
    (ds.zip (functionNames ds)).map (·.1) = ds :=
  List.map_fst_zip (Nat.le_of_eq (length_functionNamesAfter [] ds).symm)

def importLines (names : List String) : List String :=
  (aliasTable names).map fun (module, name) => "import " ++ module ++ " as " ++ name

def nameLines (ds : List Descriptor) : List String :=
  (dispatchFunction :: functionNames ds).map fun name => "    \"" ++ name ++ "\","

theorem extensionsLines_eq (ds : List Descriptor) : extensionsLines ds =
    (titled "Fast enum member-name lookups" ++
      ["\"\"\"Member-name lookups for enums marked with @enum_extensions.\"\"\"",
       "",
       "from functools import singledispatch",
       ""]) ++
    (importLines (modules ds) ++ "" :: "__all__ = [" :: (nameLines ds ++ "]" :: "" :: "" ::
      (dispatcher ++ mappingFunctions ds))) := by
  simp only [extensionsLines, moduleAliases, aliasTable, importLines, nameLines,
    List.append_assoc, List.cons_append, List.nil_append]

theorem importLines_injective {names others : List String}
    (same : importLines names = importLines others) : names = others := by
  have length : names.length = others.length := by
    simpa [importLines, aliasTable] using congrArg List.length same
  apply List.ext_getElem length
  intro index inside alsoInside
  have line := congrArg (fun lines => lines[index]?) same
  simp only [importLines, aliasTable, List.getElem?_map, List.getElem?_mapIdx,
    List.getElem?_eq_getElem inside, List.getElem?_eq_getElem alsoInside, Option.map_some,
    Option.some.injEq] at line
  rw [String.append_left_inj, String.append_left_inj] at line
  exact (String.append_right_inj _).mp line

theorem empty_not_mem_importLines (names : List String) : "" ∉ importLines names := by
  intro member
  obtain ⟨entry, -, empty⟩ := List.mem_map.mp member
  simp at empty

theorem bracket_not_mem_nameLines (ds : List Descriptor) : "]" ∉ nameLines ds := by
  intro member
  obtain ⟨name, -, bracket⟩ := List.mem_map.mp member
  have first := congrArg (fun text => text.toList[0]?) bracket
  simp only [String.toList_append] at first
  revert first
  simp

theorem extensionsLines_injective (same : extensionsLines ds = extensionsLines es) : ds = es := by
  rw [extensionsLines_eq, extensionsLines_eq] at same
  have same := List.append_cancel_left same
  obtain ⟨imports, same⟩ :=
    cut_unique (empty_not_mem_importLines _) (empty_not_mem_importLines _) same
  obtain ⟨-, same⟩ := List.cons.inj same
  obtain ⟨-, same⟩ := cut_unique (bracket_not_mem_nameLines ds) (bracket_not_mem_nameLines es) same
  have functions := List.append_cancel_left (List.cons.inj (List.cons.inj same).2).2
  have table := importLines_injective imports
  rw [mappingFunctions_eq, mappingFunctions_eq, table] at functions
  have known (es : List Descriptor) (entry : Descriptor × String)
      (member : entry ∈ es.zip (functionNames es)) : entry.1.module ∈ modules es :=
    module_mem_modules (List.of_mem_zip member).1
  have descriptors := functionLines_unique
    (fun entry member => table ▸ known ds entry member) (known es) functions
  rwa [map_fst_zip_functionNames, map_fst_zip_functionNames] at descriptors

theorem oneLine_flatName {name : String} (oneLine : Text.OneLine name) :
    Text.OneLine (flatName name) := by
  intro member
  rw [flatName, String.toList_ofList] at member
  obtain ⟨c, inside, same⟩ := List.mem_map.mp member
  split at same
  · cases same
  · exact oneLine (same ▸ inside)

theorem oneLine_numbered {base : String} (oneLine : Text.OneLine base) (occurrence : Nat) :
    Text.OneLine (numbered base occurrence) := by
  unfold numbered
  split
  · exact oneLine
  · exact oneLine_append.mpr ⟨oneLine_append.mpr ⟨oneLine, by decide⟩, oneLine_decimal _⟩

theorem oneLine_functionNames (asked : List String) (oneLine : ∀ d ∈ ds, d.OneLine) :
    ∀ name ∈ functionNamesAfter asked ds, Text.OneLine name := by
  induction ds generalizing asked with
  | nil => nofun
  | cons d rest ih =>
    obtain ⟨first, others⟩ := List.forall_mem_cons.mp oneLine
    rw [functionNamesAfter, List.forall_mem_cons]
    have flat := oneLine_flatName (first d.qualifiedName (by simp))
    have base : Text.OneLine (baseName d) :=
      oneLine_append.mpr ⟨oneLine_append.mpr ⟨flat, by decide⟩, by decide⟩
    exact ⟨oneLine_numbered base _, ih _ others⟩

theorem oneLine_localPart (oneLine : d.OneLine) : Text.OneLine d.localPart := by
  intro member
  rw [Descriptor.localPart, String.toList_ofList] at member
  exact oneLine d.qualifiedName (by simp) (List.mem_of_mem_drop member)

theorem oneLine_mappingFunction (oneLine : d.OneLine) {name moduleAlias : String}
    (named : Text.OneLine name) (aliased : Text.OneLine moduleAlias) :
    ∀ line ∈ mappingFunction d name moduleAlias, Text.OneLine line := by
  have reference : Text.OneLine (moduleAlias ++ d.localPart) :=
    oneLine_append.mpr ⟨aliased, oneLine_localPart oneLine⟩
  have between (front back : String) {inner : String} (inside : Text.OneLine inner)
      (before : Text.OneLine front) (behind : Text.OneLine back) :
      Text.OneLine (front ++ inner ++ back) :=
    oneLine_append.mpr ⟨oneLine_append.mpr ⟨before, inside⟩, behind⟩
  rw [mappingFunction_eq]
  simp only [List.forall_mem_cons, List.forall_mem_append, List.not_mem_nil, false_imp_iff,
    implies_true, and_true]
  refine ⟨between _ _ reference (by decide) (by decide), ?_, ?_, by decide⟩
  · exact between _ _ reference (between _ _ named (by decide) (by decide)) (by decide)
  · intro line member
    obtain ⟨m, isMember, inClause⟩ := List.mem_flatMap.mp member
    have memberLine : Text.OneLine m := oneLine m (by simp [isMember])
    simp only [List.mem_cons, List.not_mem_nil, or_false] at inClause
    rcases inClause with rfl | rfl
    · exact between _ _ memberLine (between _ _ reference (by decide) (by decide)) (by decide)
    · exact between _ _ memberLine (by decide) (by decide)

theorem oneLine_aliasOf (index : Nat) : Text.OneLine (aliasOf index) :=
  oneLine_append.mpr ⟨by decide, oneLine_decimal index⟩

theorem oneLine_of_mem_aliasTable {names : List String} {module name : String}
    (oneLine : ∀ module ∈ names, Text.OneLine module) (member : (module, name) ∈ aliasTable names) :
    Text.OneLine module ∧ Text.OneLine name := by
  obtain ⟨index, inside, same⟩ := List.mem_mapIdx.mp member
  obtain ⟨rfl, rfl⟩ := Prod.mk.inj same
  exact ⟨oneLine _ (List.getElem_mem inside), oneLine_aliasOf index⟩

theorem oneLine_modules (oneLine : ∀ d ∈ ds, d.OneLine) :
    ∀ module ∈ modules ds, Text.OneLine module := by
  intro module member
  rw [modules, sortedDistinct, List.mem_mergeSort, List.mem_eraseDups] at member
  obtain ⟨d, inside, rfl⟩ := List.mem_map.mp member
  exact oneLine d inside _ (by simp)

theorem oneLine_extensionsLines (oneLine : ∀ d ∈ ds, d.OneLine) :
    ∀ line ∈ extensionsLines ds, Text.OneLine line := by
  have table {module name : String} (member : (module, name) ∈ aliasTable (modules ds)) :=
    oneLine_of_mem_aliasTable (oneLine_modules oneLine) member
  have names := oneLine_functionNames [] oneLine
  rw [extensionsLines_eq]
  simp only [List.forall_mem_append, List.forall_mem_cons]
  refine ⟨⟨by decide, by decide⟩, ?_, by decide, by decide, ?_, by decide, by decide, by decide,
    by decide, ?_⟩
  · intro line member
    obtain ⟨⟨module, name⟩, inside, rfl⟩ := List.mem_map.mp member
    obtain ⟨moduleLine, nameLine⟩ := table inside
    exact oneLine_append.mpr ⟨oneLine_append.mpr
      ⟨oneLine_append.mpr ⟨by decide, moduleLine⟩, by decide⟩, nameLine⟩
  · intro line member
    obtain ⟨name, inside, rfl⟩ := List.mem_map.mp member
    have nameLine : Text.OneLine name := by
      rcases List.mem_cons.mp inside with rfl | inside
      · decide
      · exact names name inside
    exact oneLine_append.mpr ⟨oneLine_append.mpr ⟨by decide, nameLine⟩, by decide⟩
  · intro line member
    obtain ⟨⟨d, name⟩, inside, inFunction⟩ := List.mem_flatMap.mp member
    obtain ⟨known, named⟩ := List.of_mem_zip inside
    simp only [List.mem_cons] at inFunction
    rcases inFunction with rfl | rfl | inFunction
    · decide
    · decide
    · refine oneLine_mappingFunction (oneLine d known) (names name named) ?_ line inFunction
      obtain ⟨index, -, found⟩ := lookup_mapIdx aliasOf (module_mem_modules known)
      rw [moduleAliases, found]
      exact oneLine_aliasOf index

theorem extensionsText_injective (oneLine : ∀ d ∈ ds, d.OneLine) (alsoOneLine : ∀ e ∈ es, e.OneLine)
    (same : extensionsText ds = extensionsText es) : ds = es := by
  have some (ds : List Descriptor) : extensionsLines ds ≠ [] := by
    rw [extensionsLines_eq]
    simp
  apply extensionsLines_injective
  exact joinLines_injective (some ds) (some es) (oneLine_extensionsLines oneLine)
    (oneLine_extensionsLines alsoOneLine) ((String.append_left_inj _).mp same)

theorem renderExtensions_eq_ok {text : String} :
    renderExtensions ds = .ok text ↔ ds ≠ [] ∧ text = extensionsText ds := by
  unfold renderExtensions
  cases ds with
  | nil => simp
  | cons d rest => simp [eq_comm]

/-- Descriptors that are rendered to one text are the same, in the same order. Their names are
identifiers with dots between them. -/
theorem renderExtensions_injective (spelled : ∀ d ∈ ds ++ es, d.Spelled) {text : String}
    (rendered : renderExtensions ds = .ok text) (again : renderExtensions es = .ok text) :
    ds = es := by
  obtain ⟨oneLine, alsoOneLine⟩ := List.forall_mem_append.mp fun d member =>
    (spelled d member).oneLine
  obtain ⟨-, rfl⟩ := renderExtensions_eq_ok.mp rendered
  exact extensionsText_injective oneLine alsoOneLine (renderExtensions_eq_ok.mp again).2

def homographs : List Descriptor :=
  [⟨"a.b.C", "a.b", ["X", "Y", "X"], by decide⟩, ⟨"a.b_C", "a", [], by decide⟩,
    ⟨"a.b.C", "a", ["Z"], by decide⟩]

theorem renderExtensions_injective_homographs :
    (homographs.map baseName).eraseDups.length = 1 ∧
      (∀ d ∈ homographs ++ homographs.reverse.reverse, d.Spelled) ∧
      ∃ text, renderExtensions homographs = .ok text ∧
        renderExtensions homographs.reverse.reverse = .ok text ∧
        homographs = homographs.reverse.reverse := by
  have spelled : ∀ d ∈ homographs ++ homographs.reverse.reverse, d.Spelled := by decide +kernel
  exact ⟨by decide +kernel, spelled, _, rfl, rfl, renderExtensions_injective spelled rfl rfl⟩

end Package

end EnumLookup
