import EnumLookup.Proofs.Declaration.Branches
import EnumLookup.Proofs.Declaration.Headers
import EnumLookup.Proofs.Generation.Succession
import EnumLookup.Proofs.Source.Positions
import EnumLookup.Proofs.Text.Dotted

/-!
Where the declarations of a module stand. A class statement has a place: the way to it from the
block of the module, through branches and the bodies of classes. The declarations are those of all
places that hold a class, one for each, in the order of the source.
-/
namespace EnumLookup.Declaration

open Source Text

/-- A class statement, with the names of the classes around it. -/
structure ClassSite where
  outer : List String
  header : ClassHeader
  body : List Stmt

namespace ClassSite

def within (names : List String) (site : ClassSite) : ClassSite :=
  { site with outer := names ++ site.outer }

def qualname (site : ClassSite) : String := Dotted.join (site.outer ++ [site.header.name])

def declaration (path module : String) (site : ClassSite) : ClassDeclaration :=
  ⟨⟨path, site.header.position.line, site.header.position.column, site.qualname⟩, module,
    site.qualname, guessKind site.header.bases, site.header, site.body⟩

end ClassSite

/-- The blocks of a statement in which classes are looked for, in the order of the source: the body
of a class, or the branches. Functions, loops and other statements have none. -/
def openBlocks : Stmt → List (List Stmt)
  | .classDef _ body => [body]
  | stmt => branches stmt

def namesAround : Stmt → List String
  | .classDef header _ => [header.name]
  | _ => []

def ownSite? : Stmt → Option ClassSite
  | .classDef header body => some ⟨[], header, body⟩
  | _ => none

/-- The class statement at a place of a block. A place is the index of a statement, which may be
followed by that of one of its open blocks and a place there. So lexicographic order of places is
the order of the source. -/
def siteAt? : List Stmt → List ℕ → Option ClassSite
  | _, [] => none
  | block, [index] => block[index]?.bind ownSite?
  | block, index :: slot :: place =>
    block[index]?.bind fun stmt => (openBlocks stmt)[slot]?.bind fun inner =>
      (siteAt? inner place).map (ClassSite.within (namesAround stmt))

/-- The class statements of a block follow each other in the text as they do in the tree. -/
def Ascending (block : List Stmt) : Prop :=
  ∀ place other site later, siteAt? block place = some site → siteAt? block other = some later →
    place < other → site.header.position.place < later.header.position.place

/-! Listing what stands at places. -/

section Listing

variable {α β : Type} {entryAt? : List ℕ → Option β} {entryIn? : α → List ℕ → Option β}
  {entries others : List (List ℕ × β)} {x : α} {xs : List α}

/-- The entries at all places, in the order of the places. -/
structure Lists (entryAt? : List ℕ → Option β) (entries : List (List ℕ × β)) : Prop where
  ordered : entries.Pairwise fun entry other => entry.1 < other.1
  exact : ∀ place value, (place, value) ∈ entries ↔ entryAt? place = some value

def atIndex? (entryIn? : α → List ℕ → Option β) (xs : List α) : List ℕ → Option β
  | [] => none
  | index :: place => xs[index]?.bind fun x => entryIn? x place

theorem Lists.ne_nil (lists : Lists entryAt? entries) (indexed : entryAt? [] = none)
    {place : List ℕ} {value : β} (member : (place, value) ∈ entries) : place ≠ [] := by
  rintro rfl
  have found := (lists.exact [] value).mp member
  rw [indexed] at found
  cases found

theorem modifyHead_lt {place other : List ℕ} (before : place < other) :
    place.modifyHead (· + 1) < other.modifyHead (· + 1) := by
  cases before with
  | nil => exact .nil
  | rel less => exact .rel (Nat.succ_lt_succ less)
  | cons rest => exact .cons rest

theorem Lists.nil : Lists (atIndex? entryIn? []) [] := by
  refine ⟨.nil, fun place value => ?_⟩
  cases place <;> simp [atIndex?]

/-- The entries of the first of some things come before those of the others, at places that start
with a smaller index. -/
theorem Lists.cons (first : Lists (entryIn? x) entries)
    (rest : Lists (atIndex? entryIn? xs) others) :
    Lists (atIndex? entryIn? (x :: xs)) (entries.map (Prod.map (0 :: ·) id) ++
      others.map (Prod.map (List.modifyHead (· + 1)) id)) := by
  refine ⟨List.pairwise_append.mpr ⟨?_, ?_, ?_⟩, fun place value => ?_⟩
  · exact List.pairwise_map.mpr (first.ordered.imp fun before => List.Lex.cons before)
  · exact List.pairwise_map.mpr (rest.ordered.imp modifyHead_lt)
  · intro entry inFirst other inRest
    obtain ⟨_, -, rfl⟩ := List.mem_map.mp inFirst
    obtain ⟨⟨place, value⟩, member, rfl⟩ := List.mem_map.mp inRest
    cases place with
    | nil => exact absurd rfl (rest.ne_nil rfl member)
    | cons index place => exact List.Lex.rel (Nat.succ_pos index)
  · simp only [List.mem_append, List.mem_map, Prod.exists, Prod.map_apply, id_eq, Prod.mk.injEq]
    constructor
    · rintro (⟨place, value, member, rfl, rfl⟩ | ⟨place, value, member, rfl, rfl⟩)
      · exact (first.exact place value).mp member
      · cases place with
        | nil => exact absurd rfl (rest.ne_nil rfl member)
        | cons index place => exact (rest.exact (index :: place) value).mp member
    · intro found
      match place with
      | [] => cases found
      | 0 :: place => exact .inl ⟨place, value, (first.exact place value).mpr found, rfl, rfl⟩
      | (index + 1) :: place =>
        exact .inr ⟨index :: place, value, (rest.exact _ value).mpr found, rfl, rfl⟩

/-- What stands at the empty place comes before all that stands further inside. -/
theorem Lists.outside {own? : Option β} {around : β → β} (inside : Lists entryAt? entries)
    (indexed : entryAt? [] = none) :
    Lists (fun place => if place = [] then own? else (entryAt? place).map around)
      (own?.toList.map ([], ·) ++ entries.map (Prod.map id around)) := by
  refine ⟨List.pairwise_append.mpr ⟨?_, ?_, ?_⟩, fun place value => ?_⟩
  · cases own? <;> simp
  · exact List.pairwise_map.mpr inside.ordered
  · intro entry isOwn other isInside
    obtain ⟨_, -, rfl⟩ := List.mem_map.mp isOwn
    obtain ⟨⟨place, value⟩, member, rfl⟩ := List.mem_map.mp isInside
    cases place with
    | nil => exact absurd rfl (inside.ne_nil indexed member)
    | cons index place => exact .nil
  · simp only [List.mem_append, List.mem_map, Option.mem_toList, Prod.exists, Prod.map_apply, id_eq,
      Prod.mk.injEq]
    by_cases top : place = []
    · subst top
      rw [if_pos rfl]
      constructor
      · rintro (⟨_, own, -, rfl⟩ | ⟨_, _, member, rfl, -⟩)
        · exact own
        · exact absurd rfl (inside.ne_nil indexed member)
      · exact fun own => .inl ⟨value, own, rfl, rfl⟩
    · rw [if_neg top, Option.map_eq_some_iff]
      constructor
      · rintro (⟨_, -, rfl, -⟩ | ⟨_, inner, member, rfl, rfl⟩)
        · exact absurd rfl top
        · exact ⟨inner, (inside.exact _ inner).mp member, rfl⟩
      · rintro ⟨inner, found, rfl⟩
        exact .inr ⟨place, inner, (inside.exact place inner).mpr found, rfl, rfl⟩

end Listing

/-! The listing of a module. -/

variable {scope : Scope} {block : List Stmt} {stmt : Stmt}

def Scope.enterAll (scope : Scope) (names : List String) : Scope :=
  { scope with outer := names.foldl Dotted.qualify scope.outer }

def Scope.declareSite (scope : Scope) (site : ClassSite) : ClassDeclaration :=
  (scope.enterAll site.outer).declaration site.header site.body

theorem declareSite_within (scope : Scope) (names : List String) (site : ClassSite) :
    scope.declareSite (site.within names) = (scope.enterAll names).declareSite site := by
  simp only [Scope.declareSite, Scope.enterAll, ClassSite.within, List.foldl_append]

/-- What is collected in a scope are the declarations of what stands at places, in their order. -/
def IsListing (siteIn? : List ℕ → Option ClassSite) (collected : Scope → List ClassDeclaration) :
    Prop :=
  ∃ entries, Lists siteIn? entries ∧
    ∀ scope, collected scope = entries.map fun entry => scope.declareSite entry.2

theorem IsListing.index {α : Type} {siteIn? : α → List ℕ → Option ClassSite}
    {collected : α → Scope → List ClassDeclaration} {xs : List α}
    (each : ∀ x ∈ xs, IsListing (siteIn? x) (collected x)) :
    IsListing (atIndex? siteIn? xs) fun scope => xs.flatMap (collected · scope) := by
  induction xs with
  | nil => exact ⟨[], .nil, fun _ => rfl⟩
  | cons x xs ih =>
    obtain ⟨inFirst, inRest⟩ := List.forall_mem_cons.mp each
    obtain ⟨entries, lists, first⟩ := inFirst
    obtain ⟨others, listsRest, rest⟩ := ih inRest
    refine ⟨_, lists.cons listsRest, fun scope => ?_⟩
    simp only [List.flatMap_cons, first, rest, List.map_append, List.map_map]
    rfl

def siteWithin? (stmt : Stmt) (place : List ℕ) : Option ClassSite :=
  if place = [] then ownSite? stmt
  else (atIndex? siteAt? (openBlocks stmt) place).map (ClassSite.within (namesAround stmt))

theorem siteAt?_eq (block : List Stmt) : siteAt? block = atIndex? siteWithin? block := by
  funext place
  match place with
  | [] => rw [siteAt?, atIndex?]
  | [index] =>
    rw [siteAt?, atIndex?]
    rfl
  | index :: slot :: place =>
    rw [siteAt?, atIndex?]
    simp only [siteWithin?, atIndex?, List.cons_ne_nil, if_false, Option.map_bind]
    rfl

theorem collectAll_eq (scope : Scope) (blocks : List (List Stmt)) :
    collectAll scope blocks = blocks.flatMap (collect scope) := by
  induction blocks with
  | nil => rfl
  | cons block rest ih => rw [collectAll, ih, List.flatMap_cons]

theorem collect_eq_statements (scope : Scope) (block : List Stmt) :
    collect scope block = block.flatMap (collectStatement scope) := by
  induction block with
  | nil => rfl
  | cons stmt rest ih => rw [collect, ih, List.flatMap_cons]

/-- A statement is searched as its open blocks are, behind the class that it defines. -/
theorem collectStatement_eq (scope : Scope) (stmt : Stmt) :
    collectStatement scope stmt = (ownSite? stmt).toList.map scope.declareSite ++
      (openBlocks stmt).flatMap (collect (scope.enterAll (namesAround stmt))) := by
  cases stmt with
  | classDef header body =>
    simp [collectStatement, ownSite?, openBlocks, namesAround, Scope.declareSite, Scope.enterAll,
      Scope.enter]
  | ifElse test body orelse =>
    simp [collectStatement, ownSite?, openBlocks, branches, namesAround, Scope.enterAll]
  | tryExcept parts body handlers orelse final =>
    simp [collectStatement, ownSite?, openBlocks, branches, namesAround, Scope.enterAll,
      collectAll_eq]
  | _ => rfl

/-- What holds of a block when it holds of all open blocks of its statements holds of every
block. -/
theorem nested_induction {motive : List Stmt → Prop}
    (step : ∀ block, (∀ stmt ∈ block, ∀ inner ∈ openBlocks stmt, motive inner) → motive block)
    (block : List Stmt) : motive block := by
  -- `headers` goes into the same blocks, and asks nothing of the scope.
  refine step block (headers.induct
    (fun block => ∀ stmt ∈ block, ∀ inner ∈ openBlocks stmt, motive inner)
    (fun stmt => ∀ inner ∈ openBlocks stmt, motive inner)
    (fun blocks => ∀ inner ∈ blocks, motive inner) ?_ ?_ ?_ ?_ ?_ ?_ ?_ ?_ block)
  · intro header body inBody
    simpa [openBlocks] using step body inBody
  · intro test body orelse inBody inElse
    simpa [openBlocks, branches] using ⟨step body inBody, step orelse inElse⟩
  · intro parts body handlers orelse final inBody inHandlers inElse inFinal
    simp only [openBlocks, branches, List.forall_mem_cons, List.forall_mem_append]
    exact ⟨step body inBody, inHandlers, step orelse inElse, step final inFinal, by simp⟩
  · intro stmt noClass noIf noTry inner member
    cases stmt with
    | classDef header body => exact absurd rfl (noClass header body)
    | ifElse test body orelse => exact absurd rfl (noIf test body orelse)
    | tryExcept parts body handlers orelse final =>
      exact absurd rfl (noTry parts body handlers orelse final)
    | _ => cases member
  · simp
  · intro stmt rest inStmt inRest
    exact List.forall_mem_cons.mpr ⟨inStmt, inRest⟩
  · simp
  · intro block rest inBlock inRest
    exact List.forall_mem_cons.mpr ⟨step block inBlock, inRest⟩

theorem collect_isListing (block : List Stmt) :
    IsListing (siteAt? block) fun scope => collect scope block := by
  induction block using nested_induction with
  | step block inside =>
    -- A block is listed by its statements, and a statement by its own class and its open blocks.
    simp only [siteAt?_eq, collect_eq_statements]
    refine IsListing.index fun stmt member => ?_
    obtain ⟨entries, lists, collected⟩ := IsListing.index (inside stmt member)
    refine ⟨_, lists.outside rfl, fun scope => ?_⟩
    simp only [collectStatement_eq, collected, List.map_append, List.map_map]
    congr 1
    simp [declareSite_within]

theorem exists_lists (block : List Stmt) : ∃ entries, Lists (siteAt? block) entries ∧
    ∀ scope, collect scope block = entries.map fun entry => scope.declareSite entry.2 :=
  collect_isListing block

/-! Names and keys of what is listed. -/

variable {path module : String} {place : List ℕ} {site : ClassSite} {name : String}

theorem siteAt?_header (found : siteAt? block place = some site) : site.header ∈ headers block := by
  obtain ⟨entries, lists, collected⟩ := exists_lists block
  rw [← map_header_collect ⟨"", "", ""⟩, collected, List.map_map]
  exact List.mem_map.mpr ⟨(place, site), (lists.exact place site).mpr found, rfl⟩

/-- The classes around a class statement stand on the way to it. -/
theorem siteAt?_outer (found : siteAt? block place = some site) (around : name ∈ site.outer) :
    ∃ above enclosing, above <+: place ∧ siteAt? block above = some enclosing ∧
      enclosing.header.name = name := by
  induction block, place using siteAt?.induct generalizing site with
  | case1 => cases found
  | case2 block index =>
    obtain ⟨stmt, -, own⟩ := Option.bind_eq_some_iff.mp found
    cases stmt <;> cases own
    cases around
  | case3 block index slot place ih =>
    obtain ⟨stmt, there, inStmt⟩ := Option.bind_eq_some_iff.mp found
    obtain ⟨inner, opened, inInner⟩ := Option.bind_eq_some_iff.mp inStmt
    obtain ⟨site, further, rfl⟩ := Option.map_eq_some_iff.mp inInner
    rcases List.mem_append.mp around with ofStmt | ofInner
    · obtain ⟨own, isOwn, named⟩ : ∃ own, ownSite? stmt = some own ∧ own.header.name = name := by
        cases stmt with
        | classDef header body => exact ⟨_, rfl, (List.mem_singleton.mp ofStmt).symm⟩
        | _ => cases ofStmt
      refine ⟨[index], own, ⟨slot :: place, rfl⟩, ?_, named⟩
      rw [siteAt?, there, Option.bind_some, isOwn]
    · obtain ⟨above, enclosing, before, foundAbove, named⟩ := ih inner further ofInner
      refine ⟨index :: slot :: above, enclosing.within (namesAround stmt), ?_, ?_, named⟩
      · exact (List.prefix_append_right_inj [index, slot]).mpr before
      · simp only [siteAt?, there, opened, foundAbove, Option.bind_some, Option.map_some]

theorem foldl_qualify {names around : List String} (named : ∀ name ∈ around ++ names, name ≠ "") :
    names.foldl Dotted.qualify (Dotted.join around) = Dotted.join (around ++ names) := by
  induction names generalizing around with
  | nil => rw [List.foldl_nil, List.append_nil]
  | cons name rest ih =>
    have before (part : String) (member : part ∈ around) : part ≠ "" :=
      named part (List.mem_append_left _ member)
    rw [List.append_cons] at named ⊢
    rw [List.foldl_cons, Dotted.qualify_join before, ih named]

/-- A class statement is declared under its name and those of the classes around it, joined by
dots, if classes have names. -/
theorem declareSite_eq (named : ∀ header ∈ headers block, header.name ≠ "")
    (found : siteAt? block place = some site) :
    Scope.declareSite ⟨path, module, ""⟩ site = site.declaration path module := by
  have namedAround (name : String) (around : name ∈ site.outer) : name ≠ "" := by
    obtain ⟨above, enclosing, -, foundAbove, rfl⟩ := siteAt?_outer found around
    exact named _ (siteAt?_header foundAbove)
  have outer : site.outer.foldl Dotted.qualify "" = Dotted.join site.outer :=
    @foldl_qualify site.outer [] namedAround
  simp only [Scope.declareSite, Scope.enterAll, Scope.declaration, outer,
    Dotted.qualify_join namedAround, ClassSite.declaration, ClassSite.qualname]

theorem key_before {position other : Position} (earlier : position.place < other.place)
    (name otherName : String) : Key.Before ⟨path, position.line, position.column, name⟩
      ⟨path, other.line, other.column, otherName⟩ := by
  rcases Prod.Lex.toLex_lt_toLex.mp earlier with line | ⟨line, column⟩
  · refine ⟨?_, fun same => line.ne (Key.mk.inj same).2.1⟩
    simp only [Key.le, if_true, if_neg line.ne, decide_eq_true_eq]
    exact line.le
  · refine ⟨?_, fun same => column.ne (Key.mk.inj same).2.2.1⟩
    simp only [Key.le, if_true, if_pos line, if_neg column.ne, decide_eq_true_eq]
    exact column.le

/-- The keys of a block whose classes follow each other in the text do so as well. -/
theorem keys_before {entries : List (List ℕ × ClassSite)} (lists : Lists (siteAt? block) entries)
    (ascending : Ascending block) :
    (entries.map fun entry => (entry.2.declaration path module).key).Pairwise Key.Before := by
  refine List.pairwise_map.mpr (lists.ordered.imp_of_mem fun inEntries alsoIn before => ?_)
  have first := (lists.exact _ _).mp inEntries
  have second := (lists.exact _ _).mp alsoIn
  exact key_before (ascending _ _ _ _ first second before) _ _

/-- The classes of a text follow each other in the text as they do in its tree. -/
theorem parseModule_ascending [Characters] {text : List Char} {body : List Stmt}
    (parsed : parseModule text = .ok body) : Ascending body := by
  intro place other site later found alsoFound before
  obtain ⟨entries, lists, collected⟩ := exists_lists body
  have ordered := parseModule_ordered parsed
  rw [← map_header_collect ⟨"", "", ""⟩, collected, List.map_map, List.map_map,
    List.pairwise_map] at ordered
  obtain ⟨i, inside, first⟩ := List.getElem_of_mem ((lists.exact place site).mpr found)
  obtain ⟨j, alsoInside, second⟩ := List.getElem_of_mem ((lists.exact other later).mpr alsoFound)
  -- The one with the smaller place is listed first.
  rcases lt_trichotomy i j with listed | rfl | reversed
  · have ascends := List.pairwise_iff_getElem.mp ordered i j inside alsoInside listed
    rwa [first, second] at ascends
  · rw [first] at second
    cases second
    exact absurd before (lt_irrefl place)
  · have after := List.pairwise_iff_getElem.mp lists.ordered j i alsoInside inside reversed
    rw [first, second] at after
    exact absurd after (lt_asymm before)

/-- The declarations of a module are those of the class statements that can be reached from its
block through branches and the bodies of classes alone, one for each, in the order of the source,
under the names of the classes around them and their own, joined by dots. If classes follow each
other in the text as they do in the tree, then so do the keys, and no two of them are the same. -/
theorem declarations_exact (path module : String) {body : List Stmt}
    (named : ∀ header ∈ headers body, header.name ≠ "") :
    ∃ sites : List (List ℕ × ClassSite),
      sites.Pairwise (fun entry other => entry.1 < other.1) ∧
      (∀ place site, (place, site) ∈ sites ↔ siteAt? body place = some site) ∧
      declarations path module body = sites.map (fun entry => entry.2.declaration path module) ∧
      (Ascending body →
        ((declarations path module body).map (·.key)).Pairwise Key.Before ∧
        ((declarations path module body).map (·.key)).Nodup) := by
  obtain ⟨sites, lists, collected⟩ := exists_lists body
  have declared : declarations path module body =
      sites.map fun entry => entry.2.declaration path module := by
    rw [declarations, collected]
    refine List.map_congr_left fun entry member => ?_
    exact declareSite_eq named ((lists.exact entry.1 entry.2).mp member)
  refine ⟨sites, lists.ordered, lists.exact, declared, fun ascending => ?_⟩
  have before : ((declarations path module body).map (·.key)).Pairwise Key.Before := by
    rw [declared, List.map_map]
    exact keys_before lists ascending
  exact ⟨before, before.imp fun earlier => earlier.2⟩

def branchedText : String :=
  "if a:\n class A:\n  class B(Enum): 0\n def f():\n  class G: 0\n" ++
  "try:\n class C: 0\nexcept* E:\n class D: 0\n" ++
  "else:\n class A: 0\nfinally:\n class F: 0\nfor x in y:\n class H: 0\n"

theorem declarations_exact_branched : ∃ body, parseModule branchedText.toList = .ok body ∧
    (∀ header ∈ headers body, header.name ≠ "") ∧ Ascending body ∧
    (declarations "m.py" "m" body).map (·.qualname) = ["A", "A.B", "C", "D", "A", "F"] ∧
    ((declarations "m.py" "m" body).map (·.key)).Pairwise Key.Before ∧
    ∃ sites : List (List ℕ × ClassSite),
      declarations "m.py" "m" body = sites.map (fun entry => entry.2.declaration "m.py" "m") ∧
      ∀ place site, (place, site) ∈ sites ↔ siteAt? body place = some site := by
  have read : ((parseModule branchedText.toList).toOption.map fun body =>
      (declarations "m.py" "m" body).map (·.qualname)) =
        some ["A", "A.B", "C", "D", "A", "F"] := by decide +kernel
  cases parsed : parseModule branchedText.toList with
  | error failure =>
    rw [parsed] at read
    cases read
  | ok body =>
    rw [parsed] at read
    have named (header : ClassHeader) (member : header ∈ headers body) : header.name ≠ "" :=
      (parseModule_names parsed header member).1
    have ascending := parseModule_ascending parsed
    obtain ⟨sites, -, exact, declared, keys⟩ := declarations_exact "m.py" "m" named
    exact ⟨body, rfl, named, ascending, Option.some.inj read, (keys ascending).1, sites, declared,
      exact⟩

end EnumLookup.Declaration
