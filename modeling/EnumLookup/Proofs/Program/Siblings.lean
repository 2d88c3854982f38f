import EnumLookup.Proofs.Declaration.Nesting
import EnumLookup.Proofs.Program.Indexing
import EnumLookup.Proofs.Program.Reachability
import EnumLookup.Proofs.Program.Reading

/-!
Bases in the bodies of classes. Such a body sees the classes that stand in it before the inheriting
one, and what the module sees. The walk asks one table of all classes of the module instead, which
knows no order: it sees the classes of the body that come later as well, the inheriting class
itself, and those of other bodies under the same qualified name.
-/
namespace EnumLookup

open Declaration Source Text Relation

namespace Text.Dotted

variable {outer other name head : String}

theorem enclosing_append (undotted : '.' ∉ name.toList) :
    enclosing (outer ++ "." ++ name) = outer := by
  rw [enclosing, components_append, components_undotted undotted, List.dropLast_concat,
    join_components]

/-- A name with a dot is cut in one way only at its last dot. -/
theorem append_unique (undotted : '.' ∉ name.toList) (alsoUndotted : '.' ∉ head.toList)
    (same : outer ++ "." ++ name = other ++ "." ++ head) : outer = other ∧ name = head := by
  have front := congrArg enclosing same
  rw [enclosing_append undotted, enclosing_append alsoUndotted] at front
  rw [front] at same
  exact ⟨front, (String.append_right_inj _).mp same⟩

theorem cut_fst_undotted (name : String) : '.' ∉ (cut name).1.toList := by
  intro member
  rw [cut, String.toList_ofList] at member
  simpa using List.all_eq_true.mp List.all_takeWhile _ member

theorem qualify_ne_empty (given : name ≠ "") : qualify outer name ≠ "" := by
  unfold qualify
  split
  · exact given
  · simp

end Text.Dotted

namespace LoadedModule

variable {home : LoadedModule} {outer head : String}

/-- The declarations are those of the class statements directly in a file, and directly in the
bodies of declarations. -/
structure Nested (home : LoadedModule) : Prop where
  inner : ∀ enclosing ∈ home.declarations, ∀ statement ∈ directClasses enclosing.body,
    ∃ declaration ∈ home.declarations,
      declaration.plain = (enclosing.inside.declare statement).plain
  origin : ∀ declaration ∈ home.declarations, declaration.qualname = declaration.header.name ∨
    ∃ enclosing ∈ home.declarations,
      (declaration.header, declaration.body) ∈ directClasses enclosing.body ∧
        declaration.qualname = Dotted.qualify enclosing.qualname declaration.header.name

theorem nested_plain : home.plain.Nested ↔ home.Nested := by
  constructor
  · rintro ⟨inner, origin⟩
    refine ⟨fun enclosing around statement direct => ?_, fun declaration declared => ?_⟩
    · obtain ⟨_, declared, same⟩ :=
        inner enclosing.plain (List.mem_map_of_mem around) statement direct
      obtain ⟨declaration, inHome, rfl⟩ := List.mem_map.mp declared
      exact ⟨declaration, inHome, same⟩
    · refine (origin declaration.plain (List.mem_map_of_mem declared)).imp id ?_
      rintro ⟨_, around, inside⟩
      obtain ⟨enclosing, inHome, rfl⟩ := List.mem_map.mp around
      exact ⟨enclosing, inHome, inside⟩
  · rintro ⟨inner, origin⟩
    refine ⟨fun _ around statement direct => ?_, fun _ declared => ?_⟩
    · obtain ⟨enclosing, inHome, rfl⟩ := List.mem_map.mp around
      obtain ⟨declaration, declared, same⟩ := inner enclosing inHome statement direct
      exact ⟨declaration.plain, List.mem_map_of_mem declared, same⟩
    · obtain ⟨declaration, inHome, rfl⟩ := List.mem_map.mp declared
      refine (origin declaration inHome).imp id ?_
      rintro ⟨enclosing, around, inside⟩
      exact ⟨enclosing.plain, List.mem_map_of_mem around, inside⟩

theorem nested_indexModule (file : SourceFile) (body : List Stmt) :
    (Program.indexModule file body).Nested := by
  have nesting := collect_nesting ⟨file.path, file.module, ""⟩ body
  refine ⟨fun enclosing around statement direct => ?_, fun declaration declared => ?_⟩
  · exact ⟨_, nesting.inner enclosing around statement direct, rfl⟩
  · rcases nesting.origin declaration declared with
      ⟨statement, -, rfl⟩ | ⟨enclosing, around, statement, direct, rfl⟩
    · exact .inl rfl
    · exact .inr ⟨enclosing, around, direct, rfl⟩

theorem IsIndexed.nested [Characters] (indexed : home.IsIndexed) : home.Nested := by
  obtain ⟨file, text, body, -, same⟩ := indexed
  rw [← nested_plain, same, nested_plain]
  exact nested_indexModule file body

theorem IsIndexed.qualname_ne_empty [Characters] (indexed : home.IsIndexed)
    {declaration : ClassDeclaration}
    (declared : declaration ∈ home.declarations) : declaration.qualname ≠ "" := by
  have named := (indexed.namesWords declaration declared).1
  rcases indexed.nested.origin declaration declared with same | ⟨enclosing, -, -, same⟩
  · rw [same]
    exact named
  · rw [same]
    exact Dotted.qualify_ne_empty named

theorem IsIndexed.qualname_eq [Characters] (indexed : home.IsIndexed)
    {enclosing declaration : ClassDeclaration} (around : enclosing ∈ home.declarations)
    (same : declaration.qualname = Dotted.qualify enclosing.qualname declaration.header.name) :
    declaration.qualname = enclosing.qualname ++ "." ++ declaration.header.name := by
  rw [same, Dotted.qualify, if_neg (indexed.qualname_ne_empty around)]

/-- The table has a name below a class exactly when a body of the class declares it. -/
theorem IsIndexed.hasClass_iff [Characters] (indexed : home.IsIndexed)
    (undotted : '.' ∉ head.toList) :
    home.hasClass (outer ++ "." ++ head) = true ↔ ∃ enclosing ∈ home.declarations,
      enclosing.qualname = outer ∧ head ∈ declaredNames (flatten enclosing.body) := by
  constructor
  · intro found
    obtain ⟨declaration, declared, sameName⟩ := List.any_eq_true.mp found
    have qualname : declaration.qualname = outer ++ "." ++ head := by simpa using sameName
    rcases indexed.nested.origin declaration declared with
      outermost | ⟨enclosing, around, direct, inside⟩
    · have dotted := (indexed.namesWords declaration declared).2
      rw [← outermost, qualname] at dotted
      simp at dotted
    · rw [indexed.qualname_eq around inside] at qualname
      obtain ⟨same, rfl⟩ :=
        Dotted.append_unique (indexed.namesWords declaration declared).2 undotted qualname
      exact ⟨enclosing, around, same, List.mem_map.mpr ⟨_, direct, rfl⟩⟩
  · rintro ⟨enclosing, around, rfl, member⟩
    obtain ⟨statement, direct, rfl⟩ := List.mem_map.mp member
    obtain ⟨declaration, declared, same⟩ := indexed.nested.inner enclosing around statement direct
    have qualname : declaration.qualname =
        Dotted.qualify enclosing.qualname statement.1.name := congrArg ClassDeclaration.qualname same
    rw [Dotted.qualify, if_neg (indexed.qualname_ne_empty around)] at qualname
    exact List.any_eq_true.mpr ⟨declaration, declared, by simpa using qualname⟩

end LoadedModule

namespace Program

variable {program : Program} {c : LoadedClass} {enclosing : ClassDeclaration}
  {before after : List Stmt} {base : Expr} {reference : String}

/-- A class that stands in the body of another one, between these statements of it. -/
structure StandsIn (c : LoadedClass) (enclosing : ClassDeclaration) (before after : List Stmt) :
    Prop where
  declared : c.declaration ∈ c.module.declarations
  around : enclosing ∈ c.module.declarations
  place : flatten enclosing.body =
    before ++ .classDef c.declaration.header c.declaration.body :: after
  qualname : c.qualname = enclosing.qualname ++ "." ++ c.declaration.header.name

/-- What a reference means when its head is a class in a body with this qualified name. -/
def siblingName (c : LoadedClass) (outer reference : String) : String :=
  let (head, rest) := Dotted.cut reference
  Dotted.extend (c.module.name ++ "." ++ (outer ++ "." ++ head)) rest

/-- What a base in the body of a class refers to: to a class that stands in this body before the
inheriting one, or else to what the module sees. -/
def visible (program : Program) (c : LoadedClass) (enclosing : ClassDeclaration)
    (before : List Stmt) (base : Expr) : Except ResolutionError (Option String) :=
  match base.dottedName? with
  | none => .ok none
  | some reference =>
    if (Dotted.cut reference).1 ∈ declaredNames before then
      .ok (some (siblingName c enclosing.qualname reference))
    else program.resolve c.module reference

/-- The head of a reference names no class before the inheriting one, but a class under the same
qualified name: the inheriting one, a later one, or one in another body. -/
structure Late (c : LoadedClass) (enclosing : ClassDeclaration) (before after : List Stmt)
    (reference : String) : Prop where
  notBefore : (Dotted.cut reference).1 ∉ declaredNames before
  declared : (Dotted.cut reference).1 = c.declaration.header.name ∨
    (Dotted.cut reference).1 ∈ declaredNames after ∨
    ∃ other ∈ c.module.declarations, other.qualname = enclosing.qualname ∧
      (Dotted.cut reference).1 ∈ declaredNames (flatten other.body)

theorem resolveBase_eq (refers : base.dottedName? = some reference) :
    program.resolveBase c base =
      if Dotted.enclosing c.qualname ≠ "" && c.module.hasClass
          (Dotted.enclosing c.qualname ++ "." ++ (Dotted.cut reference).1) then
        .ok (some (siblingName c (Dotted.enclosing c.qualname) reference))
      else program.resolve c.module reference := by
  simp only [resolveBase, refers, siblingName]

theorem visible_eq (refers : base.dottedName? = some reference) :
    program.visible c enclosing before base =
      if (Dotted.cut reference).1 ∈ declaredNames before then
        .ok (some (siblingName c enclosing.qualname reference))
      else program.resolve c.module reference := by
  simp only [visible, refers]

theorem StandsIn.mem_declaredNames (stands : StandsIn c enclosing before after) (name : String) :
    name ∈ declaredNames (flatten enclosing.body) ↔
      name ∈ declaredNames before ∨ name = c.declaration.header.name ∨
        name ∈ declaredNames after := by
  rw [stands.place]
  simp [declaredNames, classStatements]

/-- The table has the name of a sibling when it stands before the class, or late. -/
theorem StandsIn.hasClass_iff [Characters] (stands : StandsIn c enclosing before after)
    (indexed : c.module.IsIndexed) (reference : String) :
    c.module.hasClass (enclosing.qualname ++ "." ++ (Dotted.cut reference).1) = true ↔
      (Dotted.cut reference).1 ∈ declaredNames before ∨
        Late c enclosing before after reference := by
  have own := stands.mem_declaredNames (Dotted.cut reference).1
  rw [indexed.hasClass_iff (Dotted.cut_fst_undotted reference)]
  constructor
  · rintro ⟨other, declared, same, member⟩
    by_cases first : (Dotted.cut reference).1 ∈ declaredNames before
    · exact .inl first
    · exact .inr ⟨first, .inr (.inr ⟨other, declared, same, member⟩)⟩
  · have around (inBody : (Dotted.cut reference).1 ∈ declaredNames (flatten enclosing.body)) :
        ∃ other ∈ c.module.declarations, other.qualname = enclosing.qualname ∧
          (Dotted.cut reference).1 ∈ declaredNames (flatten other.body) :=
      ⟨enclosing, stands.around, rfl, inBody⟩
    rintro (first | ⟨-, itself | later | elsewhere⟩)
    · exact around (own.mpr (.inl first))
    · exact around (own.mpr (.inr (.inl itself)))
    · exact around (own.mpr (.inr (.inr later)))
    · exact elsewhere

theorem resolveBase_standsIn [Characters] (indexed : c.module.IsIndexed)
    (stands : StandsIn c enclosing before after) (refers : base.dottedName? = some reference) :
    (¬Late c enclosing before after reference →
      program.resolveBase c base = program.visible c enclosing before base) ∧
    (Late c enclosing before after reference →
      program.resolveBase c base = .ok (some (siblingName c enclosing.qualname reference)) ∧
      program.visible c enclosing before base = program.resolve c.module reference) := by
  have outer : Dotted.enclosing c.qualname = enclosing.qualname := by
    rw [stands.qualname]
    exact Dotted.enclosing_append (indexed.namesWords _ stands.declared).2
  have inside : enclosing.qualname ≠ "" := indexed.qualname_ne_empty stands.around
  have known := stands.hasClass_iff indexed reference
  rw [resolveBase_eq refers, visible_eq refers, outer]
  constructor
  · intro notLate
    simp [inside, known, notLate]
  · intro late
    simp [inside, known, late, late.notBefore]

/-- The name is that of an enum base, or of a class that reaches one. -/
def LeadsToEnum (program : Program) (name : String) : Prop :=
  name ∈ enumBases ∨ ∃ d, program.classNamed? name = some d ∧ program.ReachesEnum d

/-- A class reaches an enum base when one of its bases leads to one. -/
theorem reachesEnum_iff : program.ReachesEnum c ↔
    ∃ base ∈ c.bases, ∃ name, program.resolveBase c base = .ok (some name) ∧
      program.LeadsToEnum name := by
  constructor
  · rintro ⟨e, path, enum⟩
    rcases path.cases_head with rfl | ⟨d, ⟨base, member, name, resolved, stands⟩, path⟩
    · obtain ⟨base, member, name, isEnum, resolved⟩ := enum
      exact ⟨base, member, name, resolved, .inl isEnum⟩
    · exact ⟨base, member, name, resolved, .inr ⟨d, stands, e, path, enum⟩⟩
  · rintro ⟨base, member, name, resolved, isEnum | ⟨d, stands, reaches⟩⟩
    · exact ⟨c, .refl, base, member, name, isEnum, resolved⟩
    · exact .of_leads ⟨base, member, name, resolved, stands⟩ reaches

variable {limits : Limits} {cache : ParseCache} {files : List SourceFile} {loaded : Loaded}

/-- A base in the body of a class is resolved by what the body sees unless its head comes late:
then it is resolved to the class that comes late and not to what the module sees. A class without
late bases has a type exactly when one of the names that its body sees leads to an enum base. -/
theorem nested_bases [Characters] (trees : cache.HoldsTrees)
    (loads : load limits cache files = .ok loaded)
    (inProgram : c.module ∈ loaded.program.modules) (stands : StandsIn c enclosing before after) :
    (∀ base reference, base.dottedName? = some reference →
      (¬Late c enclosing before after reference →
        loaded.program.resolveBase c base = loaded.program.visible c enclosing before base) ∧
      (Late c enclosing before after reference →
        loaded.program.resolveBase c base =
          .ok (some (siblingName c enclosing.qualname reference)) ∧
        loaded.program.visible c enclosing before base =
          loaded.program.resolve c.module reference)) ∧
    (loaded.program.IsClass c → loaded.program.DistinctNames → loaded.program.ResolvesBases →
      ¬loaded.program.ReachesCycle c → ¬loaded.program.Climbs [] c limits.nesting →
      (∀ base ∈ c.bases, ∀ reference, base.dottedName? = some reference →
        ¬Late c enclosing before after reference) → ∀ asked,
      (loaded.typeAfter asked c = .ok (some (enumType c)) ↔
        ∃ base ∈ c.bases, ∃ name,
          loaded.program.visible c enclosing before base = .ok (some name) ∧
            loaded.program.LeadsToEnum name)) := by
  have indexed := load_isIndexed trees loads _ inProgram
  refine ⟨fun base reference refers => resolveBase_standsIn indexed stands refers, ?_⟩
  intro isClass distinct resolves acyclic short punctual asked
  have seen : ∀ base ∈ c.bases, loaded.program.resolveBase c base =
      loaded.program.visible c enclosing before base := by
    intro base member
    cases refers : base.dottedName? with
    | none => simp only [resolveBase, visible, refers]
    | some reference =>
      exact (resolveBase_standsIn indexed stands refers).1 (punctual base member _ refers)
  have reaches : loaded.program.ReachesEnum c ↔ ∃ base ∈ c.bases, ∃ name,
      loaded.program.visible c enclosing before base = .ok (some name) ∧
        loaded.program.LeadsToEnum name := by
    rw [reachesEnum_iff]
    constructor
    · rintro ⟨base, member, name, resolved, leads⟩
      exact ⟨base, member, name, seen base member ▸ resolved, leads⟩
    · rintro ⟨base, member, name, resolved, leads⟩
      exact ⟨base, member, name, (seen base member).trans resolved, leads⟩
  obtain ⟨loading, -, rfl⟩ := load_eq_ofLoading loads
  obtain ⟨-, -, decided⟩ := typeAfter_iff_reachesEnum distinct resolves isClass asked
  obtain ⟨enum, plain⟩ := decided acyclic short
  rw [← reaches]
  constructor
  · intro typed
    by_contra never
    rw [plain never] at typed
    cases typed
  · exact enum

/-- Every class whose qualified name is more than its own name stands in the body of another one. -/
theorem exists_enclosing [Characters] (indexed : c.module.IsIndexed)
    (declared : c.declaration ∈ c.module.declarations)
    (inner : c.qualname ≠ c.declaration.header.name) :
    ∃ enclosing before after, StandsIn c enclosing before after := by
  rcases indexed.nested.origin _ declared with outermost | ⟨enclosing, around, direct, qualname⟩
  · exact absurd outermost inner
  · obtain ⟨stmt, member, same⟩ := List.mem_filterMap.mp direct
    obtain ⟨before, after, place⟩ := List.append_of_mem member
    refine ⟨enclosing, before, after, declared, around, ?_, indexed.qualname_eq around qualname⟩
    rw [place]
    cases stmt with
    | classDef header body =>
      obtain ⟨rfl, rfl⟩ := Prod.mk.inj (Option.some.inj same)
      rfl
    | _ => cases same

def nestedFiles (text : String) : List SourceFile :=
  [⟨"m.py", "m", false, .ofString ("from enum import Enum\n" ++ text)⟩]

/-- What is checked of a program before the type of a class in it is known to follow from its bases
alone: every base of a class is resolved, and those of this class lead to no class. -/
def basesSettle (program : Program) (c : LoadedClass) : Bool :=
  (program.modules.all fun home => home.declarations.all fun declaration =>
    declaration.header.bases.all fun base =>
      (program.resolveBase ⟨home, declaration⟩ base).toOption.isSome) &&
  c.bases.all fun base =>
    (program.resolveBase c base).toOption.all fun name =>
      (name.bind program.classNamed?).isNone

theorem resolvesBases_of_settle (settle : basesSettle program c = true) :
    program.ResolvesBases := by
  intro d isClass base member
  obtain ⟨home_found, declaration_found⟩ := class?_eq_some.mp isClass
  have all := (Bool.and_eq_true_iff.mp settle).1
  simp only [List.all_eq_true] at all
  have resolved := all d.module (module?_mem home_found).1 d.declaration
    (LoadedModule.class?_mem declaration_found).1 base member
  cases answer : program.resolveBase d base with
  | error error =>
    rw [answer] at resolved
    cases resolved
  | ok name => exact ⟨name, rfl⟩

theorem not_leads_of_settle (settle : basesSettle program c = true) (d : LoadedClass) :
    ¬program.Leads c d := by
  rintro ⟨base, member, name, resolved, stands⟩
  have none := List.all_eq_true.mp (Bool.and_eq_true_iff.mp settle).2 base member
  simp [resolved, stands, Except.toOption] at none

/-- A class whose bases lead to no class reaches no cycle, and nothing is above it. -/
theorem settled_ends (settle : basesSettle program c = true) :
    ¬program.ReachesCycle c ∧ ∀ steps, ¬program.Climbs [] c (steps + 1) := by
  constructor
  · rintro ⟨d, path, cycle⟩
    rcases path.cases_head with rfl | ⟨e, leads, -⟩
    · obtain ⟨e, leads, -⟩ := TransGen.head'_iff.mp cycle
      exact not_leads_of_settle settle e leads
    · exact not_leads_of_settle settle e leads
  · rintro steps (_ | ⟨-, leads, -⟩)
    exact not_leads_of_settle settle _ leads

def importedText : String := "class O:\n class A: 0\n class B(Enum): X = 1\n"

/-- The second class of the body has a type, since its base leads to an enum base. -/
theorem nested_bases_import :
    ∃ loaded c enclosing before after,
      load .standard .empty (nestedFiles importedText) = .ok loaded ∧
      ParseCache.empty.HoldsTrees ∧ c.module ∈ loaded.program.modules ∧
      StandsIn c enclosing before after ∧ c.qualname = "O.B" ∧
      loaded.typeAfter [] c = .ok (some (enumType c)) := by
  have checked : (load .standard .empty (nestedFiles importedText)).toOption.any (fun loaded =>
        loaded.program.DistinctNames ∧ (loaded.program.class? "m" "O.B").any fun c =>
          c.qualname ≠ c.declaration.header.name ∧
          c.bases.map (·.dottedName?) = [some "Enum"] ∧
          (∀ other ∈ c.module.declarations, other.header.name ≠ "Enum" ∧
            "Enum" ∉ declaredNames (flatten other.body)) ∧
          (loaded.program.resolve c.module "Enum").toOption = some (some "enum.Enum") ∧
          basesSettle loaded.program c) = true := by
    decide +kernel
  obtain ⟨loaded, loads, holds⟩ := exists_ok_of_any checked
  obtain ⟨distinct, found⟩ := of_decide_eq_true holds
  obtain ⟨c, isClass, holds⟩ := (Option.any_eq_true _ _).mp found
  obtain ⟨inner, bases, absent, resolved, settle⟩ := of_decide_eq_true holds
  obtain ⟨home_found, declaration_found⟩ := class?_eq_some.mp isClass
  have inProgram := (module?_mem home_found).1
  obtain ⟨declared, qualname⟩ := LoadedModule.class?_mem declaration_found
  obtain ⟨enclosing, before, after, stands⟩ :=
    exists_enclosing (load_isIndexed ParseCache.empty_holdsTrees loads _ inProgram) declared inner
  obtain ⟨acyclic, short⟩ := settled_ends settle
  have notLate : ¬Late c enclosing before after "Enum" := by
    rintro ⟨-, itself | later | ⟨other, declared, -, member⟩⟩
    · exact (absent _ stands.declared).1 itself.symm
    · exact (absent _ stands.around).2 ((stands.mem_declaredNames _).mpr (.inr (.inr later)))
    · exact (absent other declared).2 member
  obtain ⟨-, typed⟩ := nested_bases ParseCache.empty_holdsTrees loads inProgram stands
  refine ⟨loaded, c, enclosing, before, after, loads, ParseCache.empty_holdsTrees, inProgram, stands,
    qualname, ?_⟩
  refine (typed (class?_isClass isClass).1 distinct (resolvesBases_of_settle settle) acyclic
    (short _) ?_ []).mpr ?_
  · intro base member reference refers
    have isEnum : base.dottedName? ∈ c.bases.map (·.dottedName?) := List.mem_map_of_mem member
    rw [bases, refers, List.mem_singleton] at isEnum
    obtain rfl := Option.some.inj isEnum
    exact notLate
  · obtain ⟨base, only, refers⟩ := List.map_eq_singleton_iff.mp bases
    refine ⟨base, by simp [only], "enum.Enum", ?_, .inl (by decide)⟩
    have notBefore : (Dotted.cut "Enum").1 ∉ declaredNames before := fun first =>
      (absent _ stands.around).2 ((stands.mem_declaredNames _).mpr (.inl first))
    rw [visible_eq refers, if_neg notBefore]
    cases answer : loaded.program.resolve c.module "Enum" with
    | error error =>
      rw [answer] at resolved
      cases resolved
    | ok name =>
      rw [answer] at resolved
      exact congrArg Except.ok (Option.some.inj resolved)

def namesakeText : String := "class E(Enum): 0\nclass O:\n class E(E): X = 1\n"

/-- No class stands before the inheriting one, and the module sees an enum under the name of the
base, but the class is taken for its own base and has no type. -/
theorem nested_bases_namesake :
    ∃ loaded c enclosing, load .standard .empty (nestedFiles namesakeText) = .ok loaded ∧
      loaded.program.class? "m" "O.E" = some c ∧ StandsIn c enclosing [] [] ∧
      c.bases.map (·.dottedName?) = [some "E"] ∧
      loaded.program.resolve c.module "E" = .ok (some "m.E") ∧
      (∃ outer, loaded.program.classNamed? "m.E" = some outer ∧
        loaded.typeAfter [] outer = .ok (some (enumType outer))) ∧
      loaded.typeAfter [] c = .error (.inheritanceCycle "m.O.E") := by
  have checked : (load .standard .empty (nestedFiles namesakeText)).toOption.any (fun loaded =>
      (loaded.program.class? "m" "O.E").any fun c =>
        c.qualname ≠ c.declaration.header.name ∧
        (∀ other ∈ c.module.declarations, (flatten other.body).length = 1) ∧
        c.bases.map (·.dottedName?) = [some "E"] ∧
        loaded.program.resolve c.module "E" = .ok (some "m.E") ∧
        (loaded.program.classNamed? "m.E").any (fun outer =>
          loaded.typeAfter [] outer = .ok (some (enumType outer))) ∧
        loaded.typeAfter [] c = .error (.inheritanceCycle "m.O.E")) = true := by
    decide +kernel
  obtain ⟨loaded, loads, found⟩ := exists_ok_of_any checked
  obtain ⟨c, isClass, holds⟩ := (Option.any_eq_true _ _).mp found
  obtain ⟨inner, single, bases, resolved, outer, cycle⟩ := of_decide_eq_true holds
  obtain ⟨outer, named, typed⟩ := (Option.any_eq_true _ _).mp outer
  obtain ⟨home_found, declaration_found⟩ := class?_eq_some.mp isClass
  have indexed := load_isIndexed ParseCache.empty_holdsTrees loads _ (module?_mem home_found).1
  obtain ⟨enclosing, before, after, stands⟩ :=
    exists_enclosing indexed (LoadedModule.class?_mem declaration_found).1 inner
  have alone := single _ stands.around
  rw [stands.place, List.length_append, List.length_cons] at alone
  obtain rfl : before = [] := List.length_eq_zero_iff.mp (by omega)
  obtain rfl : after = [] := List.length_eq_zero_iff.mp (by omega)
  exact ⟨loaded, c, enclosing, loads, isClass, stands, bases, resolved,
    ⟨outer, named, of_decide_eq_true typed⟩, cycle⟩

end Program

end EnumLookup
