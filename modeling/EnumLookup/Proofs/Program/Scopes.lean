import EnumLookup.Proofs.Program.Siblings

/-!
What a dotted path denotes once a module has run. A class statement binds its name in the block it
stands in, the last binding counts, and the next name of the path is looked up in the body of the
class that is bound. The table of a module knows classes by their qualified names alone. So it keeps
a class whose enclosing class was replaced by one without it, and this is the only difference.
-/
namespace List

variable {α : Type} {p : α → Bool}

theorem findRev?_append (front back : List α) :
    (front ++ back).findRev? p = (back.findRev? p).or (front.findRev? p) := by
  simp only [findRev?_eq_find?_reverse, reverse_append, find?_append]

theorem findRev?_cons (element : α) (rest : List α) :
    (element :: rest).findRev? p = (rest.findRev? p).or (if p element then some element else none) := by
  rw [findRev?]
  cases rest.findRev? p <;> cases p element <;> rfl

theorem findRev?_eq_none {list : List α} :
    list.findRev? p = none ↔ ∀ element ∈ list, ¬p element = true := by
  simp only [findRev?_eq_find?_reverse, find?_eq_none, mem_reverse]

theorem findRev?_eq_some {list : List α} {element : α} :
    list.findRev? p = some element ↔ p element = true ∧ ∃ before after,
      list = before ++ element :: after ∧ ∀ other ∈ after, ¬p other = true := by
  rw [findRev?_eq_find?_reverse, find?_eq_some_iff_append]
  refine and_congr_right fun _ => ⟨?_, ?_⟩
  · rintro ⟨after, before, place, others⟩
    refine ⟨before.reverse, after.reverse, ?_, fun other member => ?_⟩
    · rw [← reverse_reverse list, place]
      simp
    · simpa using others other (mem_reverse.mp member)
  · rintro ⟨before, after, rfl, others⟩
    refine ⟨after.reverse, before.reverse, by simp, fun other member => ?_⟩
    simpa using others other (mem_reverse.mp member)

end List

namespace EnumLookup

open Declaration Source Text

namespace Declaration

variable {scope : Scope} {block : List Stmt} {name : String} {parts : List String}

/-- The last of the class statements directly in a block that have this name. -/
def lastClass? (name : String) (block : List Stmt) : Option ClassStatement :=
  (directClasses block).findRev? fun statement => statement.1.name == name

/-- The class that a path below a class denotes: its first name is looked up in the body of the
class, the rest in the body of what was found. -/
def below? (statement : ClassStatement) : List String → Option ClassStatement
  | [] => some statement
  | name :: rest => (lastClass? name statement.2).bind fun inner => below? inner rest

def ClassDeclaration.statement (declaration : ClassDeclaration) : ClassStatement :=
  (declaration.header, declaration.body)

theorem lastClass?_eq_none : lastClass? name block = none ↔ name ∉ declaredNames (flatten block) := by
  rw [lastClass?, List.findRev?_eq_none]
  simp only [beq_iff_eq, declaredNames, List.mem_map, directClasses, not_exists, not_and]

theorem lastClass?_mem {found : ClassStatement} (lookup : lastClass? name block = some found) :
    found ∈ directClasses block ∧ found.1.name = name := by
  obtain ⟨sameName, before, after, place, -⟩ := List.findRev?_eq_some.mp lookup
  exact ⟨by simp [place], beq_iff_eq.mp sameName⟩

theorem below?_append (statement : ClassStatement) (front back : List String) :
    below? statement (front ++ back) = (below? statement front).bind (below? · back) := by
  induction front generalizing statement with
  | nil => rfl
  | cons name rest ih => simp only [List.cons_append, below?, Option.bind_assoc, ih]

theorem below?_singleton (statement : ClassStatement) (name : String) :
    below? statement [name] = lastClass? name statement.2 := by
  simp only [below?, Option.bind_fun_some]

/-- Qualified names in a scope extend its path by the name of one of its class statements, and
by names below it. -/
def Extends (scope : Scope) (statements : List ClassStatement)
    (declarations : List ClassDeclaration) : Prop :=
  ∀ parts, (∀ part ∈ parts, Dotted.IsWord part) → scope.outer = Dotted.join parts →
    (∀ declaration ∈ declarations, Dotted.IsWord declaration.header.name) →
      ∀ declaration ∈ declarations, ∃ statement ∈ statements, ∃ more,
        (∀ part ∈ statement.1.name :: more, Dotted.IsWord part) ∧
          declaration.qualname = Dotted.join (parts ++ statement.1.name :: more)

variable {statements others : List ClassStatement} {first rest : List ClassDeclaration}
  {header : ClassHeader} {body : List Stmt}

theorem Extends.nil (scope : Scope) : Extends scope [] [] := by
  intro parts words path named declaration member
  cases member

theorem Extends.append (one : Extends scope statements first) (two : Extends scope others rest) :
    Extends scope (statements ++ others) (first ++ rest) := by
  intro parts words path named declaration member
  obtain ⟨namedFirst, namedRest⟩ := List.forall_mem_append.mp named
  rcases List.mem_append.mp member with member | member
  · obtain ⟨statement, direct, found⟩ := one parts words path namedFirst declaration member
    exact ⟨statement, List.mem_append_left _ direct, found⟩
  · obtain ⟨statement, direct, found⟩ := two parts words path namedRest declaration member
    exact ⟨statement, List.mem_append_right _ direct, found⟩

theorem enter_path (words : ∀ part ∈ parts, Dotted.IsWord part)
    (path : scope.outer = Dotted.join parts) (header : ClassHeader) :
    (scope.enter header).outer = Dotted.join (parts ++ [header.name]) := by
  rw [← Dotted.qualify_join (fun part member => (words part member).1), ← path]
  rfl

theorem Extends.classDef (inBody : Extends (scope.enter header) (directClasses body) rest) :
    Extends scope [(header, body)] (scope.declaration header body :: rest) := by
  intro parts words path named declaration member
  obtain ⟨(ownName : Dotted.IsWord header.name), namedBody⟩ := List.forall_mem_cons.mp named
  refine ⟨(header, body), List.mem_singleton_self _, ?_⟩
  rcases List.mem_cons.mp member with rfl | inner
  · exact ⟨[], by simpa using ownName, enter_path words path header⟩
  · have innerWords : ∀ part ∈ parts ++ [header.name], Dotted.IsWord part :=
      List.forall_mem_append.mpr ⟨words, by simpa using ownName⟩
    obtain ⟨statement, -, more, inside, qualname⟩ :=
      inBody _ innerWords (enter_path words path header) namedBody declaration inner
    refine ⟨statement.1.name :: more, List.forall_mem_cons.mpr ⟨ownName, inside⟩, ?_⟩
    rw [qualname, List.append_assoc]
    rfl

theorem collect_extends (scope : Scope) (block : List Stmt) :
    Extends scope (directClasses block) (collect scope block) :=
  collect_induction Extends.nil (fun _ _ _ _ _ inFirst inRest => inFirst.append inRest)
    (fun _ _ _ inBody => inBody.classDef) scope block

theorem flatMap_extends (scope : Scope) (statements : List ClassStatement) :
    Extends scope statements (statements.flatMap scope.declareAll) := by
  induction statements with
  | nil => exact Extends.nil scope
  | cons statement rest ih =>
    rw [List.flatMap_cons]
    exact (collect_extends _ _).classDef.append ih

/-- No declaration has the qualified name of a path that leads below none of the statements. -/
theorem Extends.findRev?_eq_none {other : List String}
    (found : Extends scope statements rest) (words : ∀ part ∈ parts, Dotted.IsWord part)
    (path : scope.outer = Dotted.join parts)
    (named : ∀ declaration ∈ rest, Dotted.IsWord declaration.header.name)
    (otherWords : ∀ part ∈ other, Dotted.IsWord part)
    (apart : ∀ statement ∈ statements, ¬parts ++ [statement.1.name] <+: other) :
    rest.findRev? (fun declaration => declaration.qualname == Dotted.join other) = none := by
  rw [List.findRev?_eq_none]
  intro declaration member same
  obtain ⟨statement, direct, more, inside, qualname⟩ := found parts words path named declaration member
  rw [beq_iff_eq, qualname] at same
  have paths := Dotted.join_injective (List.forall_mem_append.mpr ⟨words, inside⟩) otherWords same
  exact apart statement direct ⟨more, by simpa using paths⟩

theorem declareAll_named {found : ClassStatement} (direct : found ∈ directClasses block)
    (named : ∀ declaration ∈ collect scope block, Dotted.IsWord declaration.header.name) :
    ∀ declaration ∈ scope.declareAll found, Dotted.IsWord declaration.header.name := by
  intro declaration member
  rw [collect_eq_flatMap] at named
  exact named declaration (List.mem_flatMap_of_mem direct member)

/-- What the last statement of a name declares under a path counts in the whole block. -/
theorem collect_of_declareAll {found : ClassStatement} {last : ClassDeclaration}
    {rest : List String} (words : ∀ part ∈ parts ++ name :: rest, Dotted.IsWord part)
    (path : scope.outer = Dotted.join parts)
    (named : ∀ declaration ∈ collect scope block, Dotted.IsWord declaration.header.name)
    (lookup : lastClass? name block = some found)
    (isLast : (scope.declareAll found).findRev? (fun declaration =>
      declaration.qualname == Dotted.join (parts ++ name :: rest)) = some last) :
    (collect scope block).findRev? (fun declaration =>
      declaration.qualname == Dotted.join (parts ++ name :: rest)) = some last := by
  obtain ⟨-, before, after, place, later⟩ := List.findRev?_eq_some.mp lookup
  have whole : collect scope block = before.flatMap scope.declareAll ++
      (scope.declareAll found ++ after.flatMap scope.declareAll) := by
    rw [collect_eq_flatMap, place, List.flatMap_append, List.flatMap_cons]
  rw [whole] at named ⊢
  have namedAfter := (List.forall_mem_append.mp (List.forall_mem_append.mp named).2).2
  have noneLater := (flatMap_extends scope after).findRev?_eq_none
    (List.forall_mem_append.mp words).1 path namedAfter words fun statement member begins => by
      have same : statement.1.name = name := by
        simpa using (List.prefix_append_right_inj parts).mp begins
      exact later statement member (beq_iff_eq.mpr same)
  rw [List.findRev?_append, List.findRev?_append, noneLater, isLast]
  rfl

/-- The last declaration of a qualified name is that of the class that the path denotes. -/
theorem collect_last {statement : ClassStatement} {rest : List String}
    (words : ∀ part ∈ parts ++ name :: rest, Dotted.IsWord part)
    (path : scope.outer = Dotted.join parts)
    (named : ∀ declaration ∈ collect scope block, Dotted.IsWord declaration.header.name)
    (denotes : (lastClass? name block).bind (below? · rest) = some statement) :
    ∃ last, (collect scope block).findRev?
        (fun declaration => declaration.qualname == Dotted.join (parts ++ name :: rest)) =
          some last ∧ last.statement = statement := by
  induction rest generalizing scope block name parts with
  | nil =>
    obtain ⟨found, lookup, itself⟩ := Option.bind_eq_some_iff.mp denotes
    obtain rfl : found = statement := Option.some.inj itself
    obtain ⟨direct, rfl⟩ := lastClass?_mem lookup
    have outerWords := (List.forall_mem_append.mp words).1
    have own : (scope.declare found).qualname = Dotted.join (parts ++ [found.1.name]) :=
      enter_path outerWords path found.1
    have inner := (List.forall_mem_cons.mp (declareAll_named direct named)).2
    have noneInside := (collect_extends (scope.enter found.1) found.2).findRev?_eq_none
      words (enter_path outerWords path found.1) inner words fun statement _ begins => by
        simpa using begins.length_le
    refine ⟨scope.declare found, collect_of_declareAll words path named lookup ?_, rfl⟩
    rw [Scope.declareAll, List.findRev?_cons, noneInside, own]
    simp
  | cons next rest ih =>
    obtain ⟨found, lookup, inside⟩ := Option.bind_eq_some_iff.mp denotes
    obtain ⟨direct, rfl⟩ := lastClass?_mem lookup
    have outerWords := (List.forall_mem_append.mp words).1
    have inner := (List.forall_mem_cons.mp (declareAll_named direct named)).2
    have deeper : parts ++ found.1.name :: next :: rest = parts ++ [found.1.name] ++ next :: rest := by
      simp
    obtain ⟨last, isLast, same⟩ := ih (deeper ▸ words) (enter_path outerWords path found.1) inner inside
    refine ⟨last, collect_of_declareAll words path named lookup ?_, same⟩
    rw [Scope.declareAll, List.findRev?_cons, deeper, isLast]
    rfl

end Declaration

namespace LoadedModule

variable {home : LoadedModule} {path : List String} {name : String} {statement : ClassStatement}

def statement? (home : LoadedModule) (qualname : String) : Option ClassStatement :=
  (home.class? qualname).map ClassDeclaration.statement

/-- The class that a dotted path in a module denotes once the module has run: the last class
statement of the first name, and below it the rest of the path. -/
def denotes? (home : LoadedModule) : List String → Option ClassStatement
  | [] => none
  | name :: rest => (home.statement? name).bind (below? · rest)

/-- Somewhere on the path, the last class statement of the names so far has no class of the next
name in its body. -/
def Loses (home : LoadedModule) (path : List String) : Prop :=
  ∃ outer name last, outer ≠ [] ∧ outer ++ [name] <+: path ∧
    home.statement? (Dotted.join outer) = some last ∧ name ∉ declaredNames (flatten last.2)

theorem statement?_plain (home : LoadedModule) (qualname : String) :
    home.plain.statement? qualname = home.statement? qualname := by
  rw [statement?, class?_plain, Option.map_map]
  rfl

theorem denotes?_append {outer : List String} (someOuter : outer ≠ []) (inner : List String) :
    home.denotes? (outer ++ inner) = (home.denotes? outer).bind (below? · inner) := by
  cases outer with
  | nil => exact absurd rfl someOuter
  | cons name rest => simp only [List.cons_append, denotes?, Option.bind_assoc, below?_append]

structure CollectedFrom (home : LoadedModule) (scope : Scope) (body : List Stmt) : Prop where
  outermost : scope.outer = ""
  named : ∀ declaration ∈ collect scope body, Dotted.IsWord declaration.header.name
  statement? : ∀ qualname, home.statement? qualname =
    ((collect scope body).findRev? fun declaration => declaration.qualname == qualname).map
      ClassDeclaration.statement
  qualnames : home.declarations.map (·.qualname) = (collect scope body).map (·.qualname)

theorem IsIndexed.collectedFrom [Characters] (indexed : home.IsIndexed) :
    ∃ scope body, home.CollectedFrom scope body := by
  obtain ⟨file, text, body, tree, same⟩ := indexed
  have itself : (Program.indexModule file body).IsIndexed := ⟨file, text, body, tree, rfl⟩
  refine ⟨⟨file.path, file.module, ""⟩, body, rfl, itself.namesWords, fun qualname => ?_, ?_⟩
  · rw [← statement?_plain, same, statement?_plain]
    rfl
  · have names := congrArg (fun home => home.declarations.map (·.qualname)) same
    simp only [plain, List.map_map] at names
    exact names

variable {scope : Scope} {body : List Stmt}

theorem CollectedFrom.statement?_eq_none (collected : home.CollectedFrom scope body)
    (word : Dotted.IsWord name) (absent : lastClass? name body = none) :
    home.statement? name = none := by
  have words : ∀ part ∈ [name], Dotted.IsWord part := by simpa using word
  have noneNamed := (collect_extends scope body).findRev?_eq_none (List.forall_mem_nil _)
    collected.outermost collected.named words fun statement direct begins => by
      have same : statement.1.name = name := by simpa using begins
      exact lastClass?_eq_none.mp absent (List.mem_map.mpr ⟨statement, direct, same⟩)
  rw [Dotted.join_singleton] at noneNamed
  rw [collected.statement?, noneNamed]
  rfl

theorem CollectedFrom.statement?_below (collected : home.CollectedFrom scope body)
    {rest : List String} (words : ∀ part ∈ name :: rest, Dotted.IsWord part)
    (denotes : (lastClass? name body).bind (below? · rest) = some statement) :
    home.statement? (Dotted.join (name :: rest)) = some statement := by
  have outermostWords : ∀ part ∈ [] ++ name :: rest, Dotted.IsWord part := words
  obtain ⟨last, isLast, rfl⟩ :=
    collect_last outermostWords collected.outermost collected.named denotes
  rw [List.nil_append] at isLast
  rw [collected.statement?, isLast]
  rfl

theorem CollectedFrom.statement?_word (collected : home.CollectedFrom scope body)
    (word : Dotted.IsWord name) : home.statement? name = lastClass? name body := by
  cases lookup : lastClass? name body with
  | none => exact collected.statement?_eq_none word lookup
  | some found =>
    have denotes : (lastClass? name body).bind (below? · []) = some found := by
      rw [lookup]
      rfl
    have words : ∀ part ∈ [name], Dotted.IsWord part := by simpa using word
    rw [← collected.statement?_below words denotes, Dotted.join_singleton]

/-- A class that a path denotes is the last one of the qualified name. -/
theorem IsIndexed.statement?_of_denotes [Characters] (indexed : home.IsIndexed)
    (words : ∀ part ∈ path, Dotted.IsWord part) (denotes : home.denotes? path = some statement) :
    home.statement? (Dotted.join path) = some statement := by
  obtain ⟨scope, body, collected⟩ := indexed.collectedFrom
  cases path with
  | nil => cases denotes
  | cons name rest =>
    rw [denotes?, collected.statement?_word (words name (List.mem_cons_self ..))] at denotes
    exact collected.statement?_below words denotes

/-- The qualified name of a class is a path whose first name is bound in the module. -/
theorem IsIndexed.exists_path [Characters] (indexed : home.IsIndexed)
    {declaration : ClassDeclaration} (declared : declaration ∈ home.declarations) :
    ∃ name rest, (∀ part ∈ name :: rest, Dotted.IsWord part) ∧
      declaration.qualname = Dotted.join (name :: rest) ∧ home.denotes? [name] ≠ none := by
  obtain ⟨scope, body, collected⟩ := indexed.collectedFrom
  have known : declaration.qualname ∈ (collect scope body).map (·.qualname) :=
    collected.qualnames ▸ List.mem_map_of_mem declared
  obtain ⟨original, inBody, same⟩ := List.mem_map.mp known
  obtain ⟨first, direct, rest, words, qualname⟩ := collect_extends scope body [] (by simp)
    collected.outermost collected.named original inBody
  refine ⟨first.1.name, rest, words, same.symm.trans qualname, ?_⟩
  have bound : lastClass? first.1.name body ≠ none := fun absent =>
    lastClass?_eq_none.mp absent (List.mem_map_of_mem direct)
  rw [denotes?, collected.statement?_word (words _ (List.mem_cons_self ..))]
  simpa [below?] using bound

theorem IsIndexed.loses_of_none [Characters] (indexed : home.IsIndexed) {rest : List String}
    (words : ∀ part ∈ name :: rest, Dotted.IsWord part) (bound : home.denotes? [name] ≠ none)
    (none : home.denotes? (name :: rest) = none) : home.Loses (name :: rest) := by
  induction rest using List.reverseRecOn with
  | nil => exact absurd none bound
  | append_singleton front last ih =>
    have someNames : name :: front ≠ [] := List.cons_ne_nil name front
    rw [← List.cons_append] at words none ⊢
    have frontWords := (List.forall_mem_append.mp words).1
    rw [denotes?_append someNames] at none
    cases denotes : home.denotes? (name :: front) with
    | none =>
      obtain ⟨outer, next, found, someOuter, begins, isLast, absent⟩ := ih frontWords denotes
      exact ⟨outer, next, found, someOuter, begins.trans (List.prefix_append _ _), isLast, absent⟩
    | some found =>
      rw [denotes, Option.bind_some, below?_singleton] at none
      exact ⟨name :: front, last, found, someNames, List.prefix_refl _,
        indexed.statement?_of_denotes frontWords denotes, lastClass?_eq_none.mp none⟩

theorem IsIndexed.none_of_loses [Characters] (indexed : home.IsIndexed)
    (words : ∀ part ∈ path, Dotted.IsWord part) (loses : home.Loses path) :
    home.denotes? path = none := by
  obtain ⟨outer, name, last, someOuter, ⟨rest, rfl⟩, isLast, absent⟩ := loses
  have outerWords := (List.forall_mem_append.mp (List.forall_mem_append.mp words).1).1
  rw [List.append_assoc, denotes?_append someOuter]
  cases denotes : home.denotes? outer with
  | none => rfl
  | some found =>
    have same := indexed.statement?_of_denotes outerWords denotes
    obtain rfl : last = found := Option.some.inj (isLast.symm.trans same)
    rw [Option.bind_some, List.singleton_append, below?, lastClass?_eq_none.mpr absent]
    rfl

/-- What the qualified name of a class denotes: the last class statement of that name, unless an
enclosing class has lost it. -/
theorem IsIndexed.denotes?_qualname [Characters] (indexed : home.IsIndexed)
    {declaration : ClassDeclaration} (declared : declaration ∈ home.declarations) :
    (¬home.Loses (Dotted.components declaration.qualname) →
      home.denotes? (Dotted.components declaration.qualname) =
        home.statement? declaration.qualname) ∧
    (home.Loses (Dotted.components declaration.qualname) →
      home.denotes? (Dotted.components declaration.qualname) = none) := by
  obtain ⟨name, rest, words, qualname, bound⟩ := indexed.exists_path declared
  rw [qualname, Dotted.components_join (List.cons_ne_nil name rest) words]
  refine ⟨fun kept => ?_, indexed.none_of_loses words⟩
  cases denotes : home.denotes? (name :: rest) with
  | none => exact absurd (indexed.loses_of_none words bound denotes) kept
  | some found => exact (indexed.statement?_of_denotes words denotes).symm

end LoadedModule

end EnumLookup
