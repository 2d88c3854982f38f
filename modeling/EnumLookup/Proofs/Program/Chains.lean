import EnumLookup.Proofs.Program.Ancestry
import EnumLookup.Proofs.Text.Dotted

/-!
Chains of classes. The links of a chain are classes of one module, each the base of the one
before it, and the last is an enum. Every base looks like an enum, so loading asks nothing. A walk
up the chain passes every link, and a chain that is long enough stops it.
-/
namespace EnumLookup.Program

open Declaration Source Text Relation

def link (i : Nat) : String := String.ofList (List.replicate (i + 1) 'c' ++ "Flag".toList)

/-- The base of a link: the next link, or the enum base after the last one. -/
def linkBase (length i : Nat) : String := if i < length then link (i + 1) else "Enum"

def linkHeader (length i : Nat) : ClassHeader :=
  ⟨link i, ⟨i + 2, 0⟩, [], [.name (linkBase length i)], []⟩

def chainText (length : Nat) : String :=
  "from enum import Enum\n" ++ String.join ((List.range (length + 1)).map fun i =>
    "class " ++ link i ++ "(" ++ linkBase length i ++ "): 0\n")

def chainFile (length : Nat) : SourceFile := ⟨"m.py", "m", false, .ofString (chainText length)⟩

def chainBody (length : Nat) : List Stmt :=
  .importFrom 0 (some "enum") [⟨"Enum", none⟩] ::
    (List.range (length + 1)).map fun i => .classDef (linkHeader length i) [.simple [.constant]]

def chainModule (length : Nat) : LoadedModule := indexModule (chainFile length) (chainBody length)

def chain (length : Nat) : Loading := ⟨[chainModule length], .empty, []⟩

def chainProgram (limits : Limits) (length : Nat) : Program := ⟨limits, [chainModule length]⟩

def linkDeclaration (length i : Nat) : ClassDeclaration :=
  (⟨"m.py", "m", ""⟩ : Scope).declaration (linkHeader length i) [.simple [.constant]]

def linkClass (length i : Nat) : LoadedClass := ⟨chainModule length, linkDeclaration length i⟩

variable {length i j : Nat} {limits : Limits}

theorem link_toList (i : Nat) : (link i).toList = List.replicate (i + 1) 'c' ++ "Flag".toList :=
  String.toList_ofList

theorem link_injective (same : link i = link j) : i = j := by
  have lists := congrArg (fun name => name.toList.length) same
  simp only [link_toList, List.length_append, List.length_replicate] at lists
  omega

theorem link_undotted (i : Nat) : '.' ∉ (link i).toList := by
  rw [link_toList]
  simp

theorem link_ne_enum (i : Nat) : link i ≠ "Enum" := by
  intro same
  have lists := congrArg String.toList same
  rw [link_toList, List.replicate_succ] at lists
  simp at lists

theorem link_looksLikeEnum (i : Nat) : looksLikeEnum (link i) = true := by
  have suffix : "Flag".toList.isSuffixOf (link i).toList = true := by
    rw [List.isSuffixOf_iff_suffix, link_toList]
    exact List.suffix_append ..
  simp only [looksLikeEnum, suffix, Bool.or_true]

theorem linkBase_undotted (length i : Nat) : '.' ∉ (linkBase length i).toList := by
  unfold linkBase
  split
  · exact link_undotted _
  · decide

theorem linkBase_looksLikeEnum (length i : Nat) : looksLikeEnum (linkBase length i) = true := by
  unfold linkBase
  split
  · exact link_looksLikeEnum _
  · decide

/-! The module of a chain, as loading reads it. -/

theorem lookup_of_agree {entries : Bindings} {key value : String} (member : (key, value) ∈ entries)
    (agree : ∀ other, (key, other) ∈ entries → other = value) :
    entries.lookup key = some value := by
  induction entries with
  | nil => cases member
  | cons entry rest ih =>
    obtain ⟨name, target⟩ := entry
    by_cases same : key = name
    · subst same
      rw [List.lookup_cons_self, agree target (List.mem_cons_self ..)]
    · have inRest : (key, value) ∈ rest := by
        rcases List.mem_cons.mp member with first | inRest
        · cases first
          exact absurd rfl same
        · exact inRest
      rw [List.lookup_cons, beq_eq_false_iff_ne.mpr same]
      exact ih inRest fun other inRest => agree other (List.mem_cons_of_mem _ inRest)

theorem flatten_links (length : Nat) (indices : List Nat) :
    flatten (indices.map fun i => .classDef (linkHeader length i) [.simple [.constant]]) =
      indices.map fun i => .classDef (linkHeader length i) [.simple [.constant]] := by
  induction indices with
  | nil => rfl
  | cons i rest ih => simp only [List.map_cons, flatten, branchStatements, ih, List.nil_append]

theorem chainModule_bindings (length : Nat) :
    (chainModule length).bindings = (("Enum", "enum.Enum") ::
      (List.range (length + 1)).map fun i => (link i, "m." ++ link i)).reverse := by
  simp only [chainModule, indexModule, moduleBindings, chainBody, flatten, branchStatements,
    flatten_links, List.nil_append, List.flatMap_cons]
  rw [List.flatMap_map, List.map_eq_flatMap]
  rfl

theorem chainModule_declarations (length : Nat) :
    (chainModule length).declarations = (List.range (length + 1)).map (linkDeclaration length) := by
  have links (indices : List Nat) :
      collect ⟨"m.py", "m", ""⟩ (indices.map fun i =>
        .classDef (linkHeader length i) [.simple [.constant]]) =
        indices.map (linkDeclaration length) := by
    induction indices with
    | nil => rfl
    | cons i rest ih =>
      simp only [List.map_cons, collect, collectStatement, ih]
      rfl
  exact links (List.range (length + 1))

theorem lookup_link (inside : i ≤ length) :
    (chainModule length).bindings.lookup (link i) = some ("m." ++ link i) := by
  rw [chainModule_bindings]
  refine lookup_of_agree ?_ ?_
  · simp only [List.mem_reverse, List.mem_cons, List.mem_map, List.mem_range]
    exact .inr ⟨i, by omega, rfl⟩
  · intro other member
    simp only [List.mem_reverse, List.mem_cons, List.mem_map, List.mem_range] at member
    rcases member with first | ⟨j, -, same⟩
    · exact absurd (Prod.mk.inj first).1 (link_ne_enum i)
    · obtain ⟨name, rfl⟩ := Prod.mk.inj same
      rw [name]

theorem lookup_enum (length : Nat) :
    (chainModule length).bindings.lookup "Enum" = some "enum.Enum" := by
  rw [chainModule_bindings]
  refine lookup_of_agree (by simp) ?_
  intro other member
  simp only [List.mem_reverse, List.mem_cons, List.mem_map, List.mem_range] at member
  rcases member with first | ⟨j, -, same⟩
  · exact (Prod.mk.inj first).2
  · exact absurd (Prod.mk.inj same).1 (link_ne_enum j)

theorem linkDeclaration_qualname (length i : Nat) : (linkDeclaration length i).qualname = link i :=
  rfl

theorem linkDeclaration_kind (length i : Nat) : (linkDeclaration length i).kind = .enum := by
  have looks : ([Expr.name (linkBase length i)].any fun base =>
      base.terminalName?.any looksLikeEnum) = true := by
    simp [Expr.terminalName?, Expr.callTarget, Expr.lastName?, linkBase_looksLikeEnum]
  simp only [linkDeclaration, Scope.declaration, guessKind, linkHeader, looks, if_true]

/-- Every link is the class of its name. -/
theorem class?_link (inside : i ≤ length) :
    (chainModule length).class? (link i) = some (linkDeclaration length i) := by
  unfold LoadedModule.class?
  rw [List.findRev?_eq_find?_reverse, chainModule_declarations]
  cases found : List.find? (fun declaration => declaration.qualname == link i)
      ((List.range (length + 1)).map (linkDeclaration length)).reverse with
  | none =>
    have differs := List.find?_eq_none.mp found (linkDeclaration length i)
    simp only [List.mem_reverse, List.mem_map, List.mem_range] at differs
    exact absurd (beq_self_eq_true (link i)) (differs ⟨i, by omega, rfl⟩)
  | some declaration =>
    have member := List.mem_of_find?_eq_some found
    simp only [List.mem_reverse, List.mem_map, List.mem_range] at member
    obtain ⟨j, -, rfl⟩ := member
    have same : (linkDeclaration length j).qualname = link i := by
      simpa using List.find?_some found
    rw [linkDeclaration_qualname] at same
    rw [link_injective same]

/-- Every class of a chain is a link. -/
theorem class?_chain {qualname : String} {declaration : ClassDeclaration}
    (found : (chainModule length).class? qualname = some declaration) :
    ∃ i, i ≤ length ∧ declaration = linkDeclaration length i := by
  obtain ⟨member, -⟩ := LoadedModule.class?_mem found
  rw [chainModule_declarations] at member
  simp only [List.mem_map, List.mem_range] at member
  obtain ⟨i, inside, rfl⟩ := member
  exact ⟨i, by omega, rfl⟩

/-- Loading a chain asks nothing. -/
theorem ofLoading_chain (limits : Limits) (length : Nat) :
    ofLoading limits (chain length) = ⟨chainProgram limits length, [], .empty, []⟩ := by
  have settled (program : Program) (indices : List Nat) :
      program.settleAll (indices.map (linkDeclaration length)) [] =
        ⟨indices.map (linkDeclaration length), [], []⟩ := by
    induction indices with
    | nil => rfl
    | cons i rest ih =>
      have first : program.settle (linkDeclaration length i) [] =
          ⟨linkDeclaration length i, [], []⟩ := by
        simp [settle, linkDeclaration_kind]
      simp only [List.map_cons, settleAll, first, ih, List.append_nil]
  simp only [ofLoading, chain, settleModules, chainModule_declarations, settled, List.append_nil]
  rw [← chainModule_declarations]
  rfl

theorem ofLoading_chain_program (limits : Limits) (length : Nat) :
    (ofLoading limits (chain length)).program = chainProgram limits length := by
  rw [ofLoading_chain]

-- The text of a chain has the bindings, the declarations and the bases of its tree.
example : (load .standard .empty [chainFile 1]).toOption.any (fun loaded =>
    loaded.program.modules.flatMap (·.bindings) = (chainModule 1).bindings ∧
      loaded.program.declarations.map (fun declaration =>
        (declaration.key, declaration.header.bases.map Expr.dottedName?)) =
      (chainModule 1).declarations.map fun declaration =>
        (declaration.key, declaration.header.bases.map Expr.dottedName?)) = true := by
  decide +kernel

/-! Names in a chain. -/

theorem module?_chain (limits : Limits) (length : Nat) :
    (chainProgram limits length).module? "m" = some (chainModule length) := rfl

/-- A name in the module of the chain. -/
theorem splitModule?_chain (limits : Limits) (length : Nat) (inner : String) :
    (chainProgram limits length).splitModule? ("m." ++ inner) =
      some (chainModule length, inner) := by
  refine splitModule?_eq_some.mpr ⟨module?_chain limits length, rfl, fun other member _ _ => ?_⟩
  rw [List.mem_singleton.mp member]

theorem splitModule?_enum (limits : Limits) (length : Nat) :
    (chainProgram limits length).splitModule? "enum.Enum" = none := rfl

/-- The names of a chain stand for themselves. -/
theorem canonicalName_link (some_renaming : 0 < limits.renamings) (inside : i ≤ length) :
    (chainProgram limits length).canonicalName ("m." ++ link i) = .ok ("m." ++ link i) := by
  obtain ⟨steps, enough⟩ := Nat.exists_eq_add_of_lt some_renaming
  have itself : (chainProgram limits length).rename? ("m." ++ link i) = none := by
    simp only [rename?, splitModule?_chain, Dotted.cut_undotted (link_undotted i),
      lookup_link inside]
    exact if_pos rfl
  have count : (chainProgram limits length).limits.renamings = steps + 1 := by
    simpa [chainProgram] using enough
  rw [canonicalName, count, canonicalWithin]
  simp only [List.contains_nil, Bool.false_eq_true, if_false, itself]

theorem canonicalName_enum (some_renaming : 0 < limits.renamings) (length : Nat) :
    (chainProgram limits length).canonicalName "enum.Enum" = .ok "enum.Enum" := by
  obtain ⟨steps, enough⟩ := Nat.exists_eq_add_of_lt some_renaming
  have count : (chainProgram limits length).limits.renamings = steps + 1 := by
    simpa [chainProgram] using enough
  rw [canonicalName, count, canonicalWithin]
  simp only [List.contains_nil, Bool.false_eq_true, if_false, rename?, splitModule?_enum]

/-- A base of a link is resolved in the module. -/
theorem resolveBase_link (length i : Nat) :
    (chainProgram limits length).resolveBase (linkClass length i) (.name (linkBase length i)) =
      (chainProgram limits length).resolve (chainModule length) (linkBase length i) := by
  have outermost : Dotted.enclosing (linkClass length i).qualname = "" :=
    Dotted.enclosing_undotted (link_undotted i)
  simp only [resolveBase, Expr.dottedName?, outermost]
  rfl

theorem resolveBase_next (some_renaming : 0 < limits.renamings) (inside : i < length) :
    (chainProgram limits length).resolveBase (linkClass length i) (.name (linkBase length i)) =
      .ok (some ("m." ++ link (i + 1))) := by
  have next : linkBase length i = link (i + 1) := if_pos inside
  rw [resolveBase_link, next]
  simp only [resolve, expand?, Dotted.cut_undotted (link_undotted _), lookup_link inside,
    Dotted.extend, if_true, canonicalName_link some_renaming inside, Except.map]

theorem resolveBase_last (some_renaming : 0 < limits.renamings) (length : Nat) :
    (chainProgram limits length).resolveBase (linkClass length length)
      (.name (linkBase length length)) = .ok (some "enum.Enum") := by
  have last : linkBase length length = "Enum" := if_neg (Nat.lt_irrefl length)
  have undotted := linkBase_undotted length length
  rw [last] at undotted
  rw [resolveBase_link, last]
  simp only [resolve, expand?, Dotted.cut_undotted undotted, lookup_enum, Dotted.extend, if_true,
    canonicalName_enum some_renaming, Except.map]

theorem classNamed?_link (inside : i ≤ length) :
    (chainProgram limits length).classNamed? ("m." ++ link i) = some (linkClass length i) := by
  simp only [classNamed?, splitModule?_chain, Option.bind_eq_bind,
    Option.bind_some, class?_link inside]
  rfl

theorem linkClass_isClass (inside : i ≤ length) :
    (chainProgram limits length).IsClass (linkClass length i) :=
  class?_eq_some.mpr ⟨module?_chain limits length, class?_link inside⟩

theorem isClass_chain {c : LoadedClass} (isClass : (chainProgram limits length).IsClass c) :
    ∃ i, i ≤ length ∧ c = linkClass length i := by
  obtain ⟨home, declared⟩ := class?_eq_some.mp isClass
  obtain ⟨module, declaration⟩ := c
  obtain rfl : chainModule length = module := by
    have member := (module?_mem home).1
    exact (List.mem_singleton.mp member).symm
  obtain ⟨i, inside, rfl⟩ := class?_chain declared
  exact ⟨i, inside, rfl⟩

theorem linkClass_injective (same : (linkClass length i).fullName = (linkClass length j).fullName) :
    i = j := by
  have names : "m" ++ "." ++ link i = "m" ++ "." ++ link j := same
  exact link_injective (String.append_right_inj _ |>.mp names)

/-! The ancestry of a chain. -/

theorem linkClass_bases (length i : Nat) :
    (linkClass length i).bases = [.name (linkBase length i)] := rfl

/-- A link leads to the next one, and to nothing else. -/
theorem leads_chain (some_renaming : 0 < limits.renamings) (inside : i ≤ length) {d : LoadedClass} :
    (chainProgram limits length).Leads (linkClass length i) d ↔
      i < length ∧ d = linkClass length (i + 1) := by
  constructor
  · rintro ⟨base, member, name, resolved, stands⟩
    rw [linkClass_bases, List.mem_singleton] at member
    subst member
    rcases Nat.lt_or_eq_of_le inside with before | rfl
    · rw [resolveBase_next some_renaming before] at resolved
      cases resolved
      rw [classNamed?_link before] at stands
      exact ⟨before, (Option.some.inj stands).symm⟩
    · rw [resolveBase_last some_renaming] at resolved
      cases resolved
      cases stands
  · rintro ⟨before, rfl⟩
    exact ⟨_, List.mem_singleton_self _, _, resolveBase_next some_renaming before,
      classNamed?_link before⟩

theorem chain_resolvesBases (some_renaming : 0 < limits.renamings) (length : Nat) :
    (chainProgram limits length).ResolvesBases := by
  intro c isClass base member
  obtain ⟨i, inside, rfl⟩ := isClass_chain isClass
  rw [linkClass_bases, List.mem_singleton] at member
  subst member
  rcases Nat.lt_or_eq_of_le inside with before | rfl
  · exact ⟨_, resolveBase_next some_renaming before⟩
  · exact ⟨_, resolveBase_last some_renaming i⟩

theorem chain_classNames (limits : Limits) (length : Nat) :
    (chainProgram limits length).classNames =
      (List.range (length + 1)).map fun i => ("m", link i) := by
  simp only [classNames, chainProgram, List.flatMap_singleton, chainModule_declarations,
    List.map_map]
  rfl

theorem chain_distinctNames (limits : Limits) (length : Nat) :
    (chainProgram limits length).DistinctNames := by
  intro a a_known b b_known same
  rw [chain_classNames] at a_known b_known
  obtain ⟨i, -, rfl⟩ := List.mem_map.mp a_known
  obtain ⟨j, -, rfl⟩ := List.mem_map.mp b_known
  rw [link_injective (String.append_right_inj _ |>.mp same)]

/-- Whatever a link leads to comes later in the chain. -/
theorem chain_later (some_renaming : 0 < limits.renamings) (inside : i ≤ length) {d : LoadedClass}
    (path : TransGen (chainProgram limits length).Leads (linkClass length i) d) :
    ∃ j, i < j ∧ j ≤ length ∧ d = linkClass length j := by
  induction path with
  | single leads =>
    obtain ⟨before, rfl⟩ := (leads_chain some_renaming inside).mp leads
    exact ⟨i + 1, Nat.lt_succ_self i, before, rfl⟩
  | tail _ leads ih =>
    obtain ⟨j, later, j_inside, rfl⟩ := ih
    obtain ⟨before, rfl⟩ := (leads_chain some_renaming j_inside).mp leads
    exact ⟨j + 1, Nat.lt_succ_of_lt later, before, rfl⟩

theorem chain_not_reachesCycle (some_renaming : 0 < limits.renamings) (inside : i ≤ length) :
    ¬ (chainProgram limits length).ReachesCycle (linkClass length i) := by
  rintro ⟨d, path, cycle⟩
  obtain ⟨j, j_inside, rfl⟩ : ∃ j, j ≤ length ∧ d = linkClass length j := by
    rcases reflTransGen_iff_eq_or_transGen.mp path with rfl | path
    · exact ⟨i, inside, rfl⟩
    · obtain ⟨j, -, j_inside, rfl⟩ := chain_later some_renaming inside path
      exact ⟨j, j_inside, rfl⟩
  obtain ⟨k, later, -, same⟩ := chain_later some_renaming j_inside cycle
  have := linkClass_injective (congrArg LoadedClass.fullName same)
  omega

/-- Every link reaches the enum base of the last one. -/
theorem chain_reachesEnum (some_renaming : 0 < limits.renamings) (inside : i ≤ length) :
    (chainProgram limits length).ReachesEnum (linkClass length i) := by
  obtain ⟨left, rfl⟩ := Nat.exists_eq_add_of_le inside
  induction left generalizing i with
  | zero =>
    exact ⟨_, .refl, _, List.mem_singleton_self _, "enum.Enum", by decide,
      resolveBase_last some_renaming i⟩
  | succ left ih =>
    have leads : (chainProgram limits (i + (left + 1))).Leads (linkClass (i + (left + 1)) i)
        (linkClass (i + (left + 1)) (i + 1)) :=
      (leads_chain some_renaming inside).mpr ⟨by omega, rfl⟩
    have above := ih (i := i + 1) (by omega)
    rw [Nat.add_right_comm] at above
    exact .of_leads leads above

/-- A link is judged by the next one. -/
theorem judgeBase_next (some_renaming : 0 < limits.renamings) (inside : i < length) :
    (chainProgram limits length).judgeBase (linkClass length i) (.name (linkBase length i)) =
      .ok (.inherits (linkClass length (i + 1))) := by
  have different : "m." ++ link (i + 1) ∉ enumBases := by
    intro member
    obtain ⟨name, -, same⟩ := List.mem_map.mp member
    have lists := congrArg String.toList same
    simp at lists
  simp only [judgeBase, resolveBase_next some_renaming inside, classNamed?_link inside,
    List.contains_iff_mem, different, if_false]

theorem new_of_passed {visiting : List String}
    (passed : ∀ name ∈ visiting, ∃ j, j < i ∧ name = (linkClass length j).fullName) :
    (linkClass length i).fullName ∉ visiting := by
  intro seen
  obtain ⟨j, before, same⟩ := passed _ seen
  have := linkClass_injective same
  omega

/-- A walk up a chain stops after as many links as it may enter. -/
theorem isEnumWithin_chain (some_renaming : 0 < limits.renamings) (depth : Nat) {i : Nat}
    (long : i + depth ≤ length) (visiting : List String)
    (passed : ∀ name ∈ visiting, ∃ j, j < i ∧ name = (linkClass length j).fullName) :
    ∃ name, (chainProgram limits length).isEnumWithin depth visiting (linkClass length i) [] =
      (.error (.tooDeep name), []) := by
  induction depth generalizing i visiting with
  | zero => exact ⟨_, isEnumWithin_zero rfl (new_of_passed passed)⟩
  | succ depth ih =>
    have before : i < length := by omega
    have further : ∀ name ∈ (linkClass length i).fullName :: visiting,
        ∃ j, j < i + 1 ∧ name = (linkClass length j).fullName := by
      intro name member
      rcases List.mem_cons.mp member with rfl | member
      · exact ⟨i, Nat.lt_succ_self i, rfl⟩
      · obtain ⟨j, earlier, same⟩ := passed name member
        exact ⟨j, Nat.lt_succ_of_lt earlier, same⟩
    obtain ⟨name, above⟩ := ih (by omega) _ further
    refine ⟨name, ?_⟩
    rw [isEnumWithin_succ rfl (new_of_passed passed), linkClass_bases]
    simp only [hasEnumBase, judgeBase_next some_renaming before, above]
    rfl

end EnumLookup.Program
