import EnumLookup.Proofs.Declaration.Rebinding
import Mathlib.Data.List.Induction
import Mathlib.Logic.Relation

/-!
Bindings without block structure. Statements with branches can be unwrapped, one after the other,
until all statements stand in a row in the order of the source, and the bindings stay the same. In
such a row each statement overrides what those before it gave to its names.
-/
namespace EnumLookup

open Declaration Relation Source Text

namespace Source

/-- What the name refers to that is bound when this module is imported: the module, or its first
component when there is no other name for it. -/
def ImportedName.moduleTarget (imported : ImportedName) : String :=
  if imported.asName.isSome then imported.name else imported.moduleName

/-- Statements with branches, whose blocks belong to the block they stand in. -/
def Stmt.isBranching : Stmt → Bool
  | .ifElse _ _ _ => true
  | .tryExcept _ _ _ _ _ => true
  | _ => false

end Source

namespace Declaration

/-- The second statement is the first one with another block in the place of one of its branches. -/
inductive Replaces (old new : List Stmt) : Stmt → Stmt → Prop
  | ifBody {test orelse} : Replaces old new (.ifElse test old orelse) (.ifElse test new orelse)
  | ifOrelse {test body} : Replaces old new (.ifElse test body old) (.ifElse test body new)
  | tryBody {parts handlers orelse final} :
      Replaces old new (.tryExcept parts old handlers orelse final)
        (.tryExcept parts new handlers orelse final)
  | handler {parts body earlier others orelse final} :
      Replaces old new (.tryExcept parts body (earlier ++ old :: others) orelse final)
        (.tryExcept parts body (earlier ++ new :: others) orelse final)
  | tryOrelse {parts body handlers final} :
      Replaces old new (.tryExcept parts body handlers old final)
        (.tryExcept parts body handlers new final)
  | final {parts body handlers orelse} :
      Replaces old new (.tryExcept parts body handlers orelse old)
        (.tryExcept parts body handlers orelse new)

/-- One statement with branches, at any depth of branches, has given way to its blocks. -/
inductive Unwraps : List Stmt → List Stmt → Prop
  | here {before stmt after} (branching : stmt.isBranching = true) :
      Unwraps (before ++ stmt :: after) (before ++ (branches stmt).flatten ++ after)
  | inside {before outer after replaced branch unwrapped} (unwraps : Unwraps branch unwrapped)
      (replaces : Replaces branch unwrapped outer replaced) :
      Unwraps (before ++ outer :: after) (before ++ replaced :: after)

def unbranched (block : List Stmt) : List Stmt :=
  (flatten block).filter fun stmt => !stmt.isBranching

/-- The target that a statement, by itself, gives to a name. Of several imports of the name in one
statement the last one counts; a star, and an import that leads above the top package, give nothing.
A definition is given by each target of an assignment that is not below a star, and by each
annotated name, with or without a value. -/
inductive Gives (context : ModuleContext) : Stmt → String → String → Prop
  | importModule {before imported after}
      (last : ∀ other ∈ after, other.moduleName ≠ imported.moduleName) :
      Gives context (.importModules (before ++ imported :: after)) imported.moduleName
        imported.moduleTarget
  | importMember {level module base before imported after}
      (found : importedModule? context level module = some base) (named : imported.name ≠ "*")
      (last : ∀ other ∈ after, other.name ≠ "*" → other.memberName ≠ imported.memberName) :
      Gives context (.importFrom level module (before ++ imported :: after)) imported.memberName
        (base ++ "." ++ imported.name)
  | classDef {header body} :
      Gives context (.classDef header body) header.name (context.module ++ "." ++ header.name)
  | functionDef {name parts body} :
      Gives context (.functionDef name parts body) name (context.module ++ "." ++ name)
  | assign {targets value name} (unstarred : ⟨name, false⟩ ∈ Expr.boundNamesOfTargets targets) :
      Gives context (.assign targets value) name (context.module ++ "." ++ name)
  | annotated {name type value} :
      Gives context (.annotated (.name name) type value) name (context.module ++ "." ++ name)

/-- The last statement of the block that gives the name a target gives it this one. -/
def LastGives (context : ModuleContext) (block : List Stmt) (name target : String) : Prop :=
  ∃ before stmt after, block = before ++ stmt :: after ∧ Gives context stmt name target ∧
    ∀ other ∈ after, ∀ another, ¬Gives context other name another

variable {context : ModuleContext} {stmt replaced : Stmt} {name target : String}
  {old new block body unwrapped front rest : List Stmt} {level : Nat} {module : Option String}
  {base : String} {names : List ImportedName}

/-! What is recorded of a block, and how it is unwrapped. -/

def recorded (context : ModuleContext) (block : List Stmt) : List (String × String) :=
  (flatten block).flatMap (statementBindings context)

theorem moduleBindings_eq (context : ModuleContext) (block : List Stmt) :
    moduleBindings context block = (recorded context block).reverse := rfl

theorem recorded_append (front rest : List Stmt) :
    recorded context (front ++ rest) = recorded context front ++ recorded context rest := by
  rw [recorded, flatten_append, List.flatMap_append]
  rfl

theorem recorded_cons (stmt : Stmt) (rest : List Stmt) :
    recorded context (stmt :: rest) = statementBindings context stmt ++
      ((branches stmt).flatMap (recorded context) ++ recorded context rest) := by
  rw [recorded, flatten_cons, List.flatMap_cons, List.flatMap_append, List.flatMap_assoc]
  rfl

theorem recorded_flatten (blocks : List (List Stmt)) :
    recorded context blocks.flatten = blocks.flatMap (recorded context) := by
  induction blocks with
  | nil => rfl
  | cons block rest ih => rw [List.flatten_cons, recorded_append, ih, List.flatMap_cons]

/-- Nothing is recorded of a statement with branches itself. -/
theorem statementBindings_branching (branching : stmt.isBranching = true) :
    statementBindings context stmt = [] := by
  cases stmt with
  | ifElse test body orelse => rfl
  | tryExcept parts body handlers orelse final => rfl
  | _ => cases branching

theorem branches_straight (straight : stmt.isBranching = false) : branches stmt = [] := by
  cases stmt with
  | ifElse test body orelse => cases straight
  | tryExcept parts body handlers orelse final => cases straight
  | _ => rfl

/-- A branch is replaced in a statement with branches, and all other branches stay. -/
theorem Replaces.branches_eq (replaces : Replaces old new stmt replaced) :
    stmt.isBranching = true ∧ replaced.isBranching = true ∧ ∃ earlier others,
      branches stmt = earlier ++ old :: others ∧ branches replaced = earlier ++ new :: others := by
  cases replaces with
  | @ifBody test orelse => exact ⟨rfl, rfl, [], [orelse], rfl, rfl⟩
  | @ifOrelse test body => exact ⟨rfl, rfl, [body], [], rfl, rfl⟩
  | @tryBody parts handlers orelse final =>
    exact ⟨rfl, rfl, [], handlers ++ [orelse, final], rfl, rfl⟩
  | @handler parts body earlier others orelse final =>
    exact ⟨rfl, rfl, body :: earlier, others ++ [orelse, final], by simp [branches],
      by simp [branches]⟩
  | @tryOrelse parts body handlers final =>
    exact ⟨rfl, rfl, body :: handlers, [final], by simp [branches], by simp [branches]⟩
  | @final parts body handlers orelse =>
    exact ⟨rfl, rfl, body :: (handlers ++ [orelse]), [], by simp [branches], by simp [branches]⟩

/-- Unwrapping changes nothing of what is recorded. -/
theorem Unwraps.recorded_eq (unwraps : Unwraps block unwrapped) :
    recorded context unwrapped = recorded context block := by
  induction unwraps with
  | @here before stmt after branching =>
    simp only [recorded_append, recorded_cons, recorded_flatten,
      statementBindings_branching branching, List.nil_append, List.append_assoc]
  | @inside before outer after replaced branch unwrapped _ replaces ih =>
    obtain ⟨branching, stays, earlier, others, was, is⟩ := replaces.branches_eq
    simp only [recorded_append, recorded_cons, statementBindings_branching branching,
      statementBindings_branching stays, was, is, List.flatMap_append, List.flatMap_cons, ih]

/-- A block is unwrapped as part of a longer one. -/
theorem Unwraps.around (unwraps : Unwraps block unwrapped) (front rest : List Stmt) :
    Unwraps (front ++ block ++ rest) (front ++ unwrapped ++ rest) := by
  cases unwraps with
  | @here before stmt after branching =>
    simpa using @here (front ++ before) stmt (after ++ rest) branching
  | @inside before outer after replaced branch unwrapped unwraps replaces =>
    simpa using @inside (front ++ before) outer (after ++ rest) replaced branch unwrapped unwraps
      replaces

theorem unwraps_append (inFront : ReflTransGen Unwraps block unwrapped)
    (inRest : ReflTransGen Unwraps front rest) :
    ReflTransGen Unwraps (block ++ front) (unwrapped ++ rest) := by
  have first : ReflTransGen Unwraps (block ++ front) (unwrapped ++ front) :=
    inFront.lift (· ++ front) fun _ _ step => by simpa using step.around [] front
  have second : ReflTransGen Unwraps (unwrapped ++ front) (unwrapped ++ rest) :=
    inRest.lift (unwrapped ++ ·) fun _ _ step => by simpa using step.around unwrapped []
  exact first.trans second

theorem unwraps_flatten {blocks : List (List Stmt)}
    (each : ∀ block ∈ blocks, ReflTransGen Unwraps block (unbranched block)) :
    ReflTransGen Unwraps blocks.flatten (blocks.flatMap unbranched) := by
  induction blocks with
  | nil => exact .refl
  | cons block rest ih =>
    obtain ⟨first, others⟩ := List.forall_mem_cons.mp each
    exact unwraps_append first (ih others)

theorem unbranched_cons (stmt : Stmt) (rest : List Stmt) :
    unbranched (stmt :: rest) = (if stmt.isBranching then [] else [stmt]) ++
      ((branches stmt).flatMap unbranched ++ unbranched rest) := by
  rw [unbranched, flatten_cons, List.filter_cons, List.filter_append, List.filter_flatMap]
  cases stmt.isBranching <;> rfl

/-- When nothing is left to unwrap, the statements stand there in the order of the source. -/
theorem unwraps_unbranched (block : List Stmt) : ReflTransGen Unwraps block (unbranched block) := by
  induction block using block_induction with
  | nil => exact .refl
  | cons stmt rest inBranches inRest =>
    rw [unbranched_cons]
    cases branching : stmt.isBranching with
    | false =>
      rw [branches_straight branching, if_neg Bool.false_ne_true]
      have stays : ReflTransGen Unwraps [stmt] [stmt] := .refl
      exact unwraps_append stays inRest
    | true =>
      rw [if_pos rfl, List.nil_append]
      have opened : Unwraps (stmt :: rest) ((branches stmt).flatten ++ rest) :=
        @Unwraps.here [] stmt rest branching
      exact .trans (.single opened) (unwraps_append (unwraps_flatten inBranches) inRest)

/-! Which of the entries counts. -/

/-- The bindings of a block are overridden by those of the block behind it. -/
theorem lookup_moduleBindings_append (front rest : List Stmt) (name : String) :
    (moduleBindings context (front ++ rest)).lookup name =
      ((moduleBindings context rest).lookup name).or
        ((moduleBindings context front).lookup name) := by
  simp only [moduleBindings_eq, recorded_append, List.reverse_append, List.lookup_append]

/-- Of items with entries, the last one that has an entry of the name decides. The induction takes
the items from the end, as the latest entry is found first. -/
theorem lookup_reverse_flatMap {α : Type} {entriesOf : α → List (String × String)}
    {items : List α} : (items.flatMap entriesOf).reverse.lookup name = some target ↔
      ∃ before item after, items = before ++ item :: after ∧
        (entriesOf item).reverse.lookup name = some target ∧
        ∀ other ∈ after, (entriesOf other).reverse.lookup name = none := by
  induction items using List.reverseRecOn with
  | nil => simp
  | append_singleton items last ih =>
    rw [List.flatMap_append, List.flatMap_singleton, List.reverse_append, List.lookup_append,
      Option.or_eq_some_iff, ih]
    constructor
    · rintro (found | ⟨missing, before, item, after, rfl, found, behind⟩)
      · exact ⟨items, last, [], rfl, found, by simp⟩
      · refine ⟨before, item, after ++ [last], by simp, found, ?_⟩
        exact List.forall_mem_append.mpr ⟨behind, List.forall_mem_singleton.mpr missing⟩
    · rintro ⟨before, item, after, whole, found, behind⟩
      cases after using List.reverseRecOn with
      | nil =>
        obtain ⟨-, same⟩ := List.append_inj' whole rfl
        obtain rfl := List.singleton_inj.mp same
        exact .inl found
      | append_singleton after other =>
        obtain ⟨inAfter, atEnd⟩ := List.forall_mem_append.mp behind
        rw [← List.cons_append, ← List.append_assoc] at whole
        obtain ⟨rfl, same⟩ := List.append_inj' whole rfl
        obtain rfl := List.singleton_inj.mp same
        have missing := atEnd last (List.mem_singleton_self last)
        exact .inr ⟨missing, before, item, after, rfl, found, inAfter⟩

theorem lookup_entry (key value name : String) :
    [(key, value)].lookup name = if key = name then some value else none := by
  rw [List.lookup_singleton]
  exact if_congr (by rw [beq_iff_eq, eq_comm]) rfl rfl

theorem moduleBinding_eq (imported : ImportedName) :
    moduleBinding imported = (imported.moduleName, imported.moduleTarget) := by
  unfold moduleBinding ImportedName.moduleTarget ImportedName.moduleName
  cases imported.asName <;> rfl

theorem memberBindings_eq (base : String) (names : List ImportedName) :
    memberBindings base names = names.flatMap fun imported =>
      if imported.name = "*" then []
      else [(imported.memberName, base ++ "." ++ imported.name)] := by
  induction names with
  | nil => rfl
  | cons imported rest ih =>
    rw [List.flatMap_cons, ← ih, memberBindings, List.filter_cons]
    by_cases star : imported.name = "*"
    · simp [star, memberBindings]
    · simp [star, memberBindings, ImportedName.memberName]

theorem lookup_moduleNames :
    (names.map moduleBinding).reverse.lookup name = some target ↔
      ∃ before imported after, names = before ++ imported :: after ∧
        (imported.moduleName = name ∧ imported.moduleTarget = target) ∧
        ∀ other ∈ after, other.moduleName ≠ name := by
  rw [List.map_eq_flatMap, lookup_reverse_flatMap]
  simp only [moduleBinding_eq, List.reverse_singleton, lookup_entry,
    Option.ite_none_right_eq_some, Option.some.injEq, ite_eq_right_iff, reduceCtorEq, imp_false,
    ne_eq]

theorem lookup_memberBindings :
    (memberBindings base names).reverse.lookup name = some target ↔
      ∃ before imported after, names = before ++ imported :: after ∧
        (imported.name ≠ "*" ∧ imported.memberName = name ∧
          base ++ "." ++ imported.name = target) ∧
        ∀ other ∈ after, other.name ≠ "*" → other.memberName ≠ name := by
  have found (imported : ImportedName) :
      (if imported.name = "*" then [] else
        [(imported.memberName, base ++ "." ++ imported.name)]).reverse.lookup name =
      if imported.name ≠ "*" ∧ imported.memberName = name then
        some (base ++ "." ++ imported.name) else none := by
    by_cases star : imported.name = "*"
    · simp [star]
    · simp only [star, if_false, List.reverse_singleton, lookup_entry, ne_eq, not_false_eq_true,
        true_and]
  rw [memberBindings_eq, lookup_reverse_flatMap]
  simp only [found, Option.ite_none_right_eq_some, Option.some.injEq, ite_eq_right_iff,
    reduceCtorEq, imp_false, ne_eq, not_and, and_assoc]

/-- Names that are defined in the module refer to what it defines. -/
theorem lookup_ownBindings {names : List String} :
    (names.map (ownBinding context)).reverse.lookup name = some target ↔
      name ∈ names ∧ context.module ++ "." ++ name = target := by
  constructor
  · intro found
    obtain ⟨before, after, whole, -⟩ := List.lookup_eq_some_iff.mp found
    have defined : (name, target) ∈ names.map (ownBinding context) :=
      List.mem_reverse.mp (by simp [whole])
    obtain ⟨id, member, same⟩ := List.mem_map.mp defined
    obtain ⟨rfl, own⟩ := Prod.mk.inj same
    exact ⟨member, own⟩
  · rintro ⟨member, rfl⟩
    refine @lookup_reverse_append [] (names.map (ownBinding context)) name _ ?_ ?_
    · intro entry defined sameName
      obtain ⟨id, -, rfl⟩ := List.mem_map.mp defined
      subst sameName
      rfl
    · exact List.mem_map_of_mem (List.mem_map_of_mem member)

theorem lookup_ownBinding {id : String} :
    [ownBinding context id].reverse.lookup name = some target ↔
      name = id ∧ context.module ++ "." ++ name = target := by
  have defined := @lookup_ownBindings context name target [id]
  rw [List.mem_singleton] at defined
  exact defined

theorem gives_importModules :
    Gives context (.importModules names) name target ↔
      (names.map moduleBinding).reverse.lookup name = some target := by
  rw [lookup_moduleNames]
  constructor
  · rintro ⟨last⟩
    exact ⟨_, _, _, rfl, ⟨rfl, rfl⟩, last⟩
  · rintro ⟨before, imported, after, rfl, ⟨rfl, rfl⟩, last⟩
    exact .importModule last

theorem gives_importFrom (found : importedModule? context level module = some base) :
    Gives context (.importFrom level module names) name target ↔
      (memberBindings base names).reverse.lookup name = some target := by
  rw [lookup_memberBindings]
  constructor
  · intro gives
    cases gives with
    | importMember leads named last =>
      rw [leads] at found
      obtain rfl := Option.some.inj found
      exact ⟨_, _, _, rfl, ⟨named, rfl, rfl⟩, last⟩
  · rintro ⟨before, imported, after, rfl, ⟨named, rfl, rfl⟩, last⟩
    exact .importMember found named last

theorem not_gives_importFrom (nowhere : importedModule? context level module = none) :
    ¬Gives context (.importFrom level module names) name target := by
  intro gives
  cases gives with
  | importMember leads named last =>
    rw [nowhere] at leads
    cases leads

/-- What a statement gives is what is found in its entries. -/
theorem gives_iff : Gives context stmt name target ↔
    (statementBindings context stmt).reverse.lookup name = some target := by
  cases stmt with
  | importModules names => exact gives_importModules
  | importFrom level module names =>
    rw [statementBindings]
    split
    next base found => exact gives_importFrom found
    next nowhere => exact iff_of_false (not_gives_importFrom nowhere) (by simp)
  | classDef header body =>
    rw [statementBindings, lookup_ownBinding]
    constructor
    · rintro ⟨⟩
      exact ⟨rfl, rfl⟩
    · rintro ⟨rfl, rfl⟩
      exact .classDef
  | functionDef id parts body =>
    rw [statementBindings, lookup_ownBinding]
    constructor
    · rintro ⟨⟩
      exact ⟨rfl, rfl⟩
    · rintro ⟨rfl, rfl⟩
      exact .functionDef
  | assign targets value =>
    rw [statementBindings, lookup_ownBindings, Expr.mem_targetNames]
    constructor
    · intro gives
      cases gives with
      | assign unstarred => exact ⟨unstarred, rfl⟩
    · rintro ⟨unstarred, rfl⟩
      exact .assign unstarred
  | annotated annotee type value =>
    cases annotee with
    | name id =>
      rw [statementBindings, lookup_ownBinding]
      constructor
      · rintro ⟨⟩
        exact ⟨rfl, rfl⟩
      · rintro ⟨rfl, rfl⟩
        exact .annotated
    | _ =>
      constructor
      · rintro ⟨⟩
      · intro found
        cases found
  | _ =>
    constructor
    · rintro ⟨⟩
    · intro found
      cases found

/-- The last statement that gives a name a target decides what the name refers to. -/
theorem lookup_iff_lastGives :
    (moduleBindings context block).lookup name = some target ↔
      LastGives context (flatten block) name target := by
  rw [moduleBindings, lookup_reverse_flatMap]
  simp only [LastGives, gives_iff, Option.eq_none_iff_forall_ne_some, ne_eq]

/-- Blocks play no part in what names refer to. Any statement with branches can give way to its
blocks, until all statements stand in a row, in the order of the source. Bindings of a block are
overridden by those of a block behind it. So the last statement in this order that gives the name a
target decides. -/
theorem bindings_last_wins (context : ModuleContext) (body : List Stmt) :
    (∀ unwrapped, Unwraps body unwrapped →
      moduleBindings context unwrapped = moduleBindings context body) ∧
    (∀ more name, (moduleBindings context (body ++ more)).lookup name =
      ((moduleBindings context more).lookup name).or
        ((moduleBindings context body).lookup name)) ∧
    (∀ name target, (moduleBindings context body).lookup name = some target ↔
      LastGives context (flatten body) name target) ∧
    ReflTransGen Unwraps body (unbranched body) := by
  refine ⟨fun unwrapped unwraps => ?_, fun more name => lookup_moduleBindings_append body more name,
    fun name target => lookup_iff_lastGives, unwraps_unbranched body⟩
  rw [moduleBindings_eq, moduleBindings_eq, unwraps.recorded_eq]

/-- A branch that imports a name, beside one with an import that leads above the top package and
with a star. -/
def fallbackImport : Stmt :=
  .ifElse (.name "slow") [.importFrom 0 (some "slow") [⟨"Mark", none⟩]]
    [.importFrom 9 (some "up") [⟨"Mark", none⟩], .importFrom 0 (some "names") [⟨"*", none⟩]]

def guardedImport (handler : List Stmt) : List Stmt :=
  [.tryExcept [] [.importFrom 0 (some "fast") [⟨"Mark", none⟩]] [handler] [] []]

/-- The import of the handler counts, and the two statements behind it do not take it away. -/
theorem bindings_last_wins_fallback :
    moduleBindings ⟨"m", false⟩ (guardedImport (branches fallbackImport).flatten) =
      moduleBindings ⟨"m", false⟩ (guardedImport [fallbackImport]) ∧
    (moduleBindings ⟨"m", false⟩ (guardedImport [fallbackImport])).lookup "Mark" =
      some "slow.Mark" := by
  obtain ⟨unchanged, -, decides, -⟩ :=
    bindings_last_wins ⟨"m", false⟩ (guardedImport [fallbackImport])
  constructor
  · have opened : Unwraps [fallbackImport] (branches fallbackImport).flatten :=
      @Unwraps.here [] fallbackImport [] rfl
    exact unchanged _ (@Unwraps.inside [] _ [] _ _ _ opened (@Replaces.handler _ _ _ _ [] [] _ _))
  · refine (decides "Mark" "slow.Mark").mpr ⟨_ :: _ :: [fallbackImport], _, [_, _], rfl, ?_, ?_⟩
    · exact @Gives.importMember _ 0 (some "slow") "slow" [] ⟨"Mark", none⟩ [] rfl (by decide)
        (by simp)
    · simp only [gives_iff, ← ne_eq, ← Option.eq_none_iff_forall_ne_some]
      decide

end Declaration

end EnumLookup
