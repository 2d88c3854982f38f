import EnumLookup.Proofs.Declaration.Rebinding
import EnumLookup.Proofs.Packages

/-!
The ways to import a member of a module. The member or its module is imported, with another name or
without, and each way has its own reference to the member. All of them lead to what the full name of
the member leads to, at any depth of branches, as long as nothing rebinds the head of the reference.
An annotation of the head rebinds nothing, but is taken for a definition of it.
-/
namespace EnumLookup

open Declaration Source Text

abbrev Importable := { name : String // Identifier.isImportable name = true }

/-- A member of a module. The path of the module has a first component. -/
structure ImportedMember where
  first : Importable
  rest : List Importable
  name : Importable

namespace ImportedMember

def path (imported : ImportedMember) : String :=
  Dotted.join (imported.first.val :: imported.rest.map (·.val))

def fullName (imported : ImportedMember) : String := imported.path ++ "." ++ imported.name

end ImportedMember

/-- `from path import name`, `from path import name as other`, `import path` and
`import path as other`. -/
inductive ImportForm where
  | member
  | renamedMember (other : Importable)
  | module
  | renamedModule (other : Importable)

namespace ImportForm

variable (form : ImportForm) (imported : ImportedMember)

def entry : ImportedName :=
  match form with
  | .member => ⟨imported.name, none⟩
  | .renamedMember other => ⟨imported.name, some other⟩
  | .module => ⟨imported.path, none⟩
  | .renamedModule other => ⟨imported.path, some other⟩

def statement (names : List ImportedName) : Stmt :=
  match form with
  | .member | .renamedMember _ => .importFrom 0 (some imported.path) names
  | .module | .renamedModule _ => .importModules names

def head : String :=
  match form with
  | .member => imported.name
  | .renamedMember other => other
  | .module => imported.first
  | .renamedModule other => other

def target : String :=
  match form with
  | .member | .renamedMember _ => imported.fullName
  | .module => imported.first
  | .renamedModule _ => imported.path

def attributes : List String :=
  match form with
  | .member | .renamedMember _ => []
  | .module => imported.rest.map (·.val) ++ [imported.name.val]
  | .renamedModule _ => [imported.name.val]

/-- How the member is referred to behind the import. -/
def reference : Expr := (form.attributes imported).foldl .attribute (.name (form.head imported))

end ImportForm

theorem Source.Expr.dottedName?_attributes {expr : Expr} {name : String}
    (refers : expr.dottedName? = some name) (attributes : List String) :
    (attributes.foldl .attribute expr).dottedName? = some (Dotted.join (name :: attributes)) := by
  induction attributes generalizing expr name with
  | nil => rw [List.foldl_nil, refers, Dotted.join_singleton]
  | cons attr rest ih =>
    have next : (Expr.attribute expr attr).dottedName? = some (name ++ "." ++ attr) := by
      rw [Expr.dottedName?, refers, Option.map_some]
    rw [List.foldl_cons, ih next, Dotted.join_cons_joined]

namespace ImportForm

variable {form : ImportForm} {imported : ImportedMember}

theorem isWord_head : Dotted.IsWord (form.head imported) := by
  cases form with
  | member => exact isWord_of_importable imported.name.property
  | renamedMember other => exact isWord_of_importable other.property
  | module => exact isWord_of_importable imported.first.property
  | renamedModule other => exact isWord_of_importable other.property

theorem isWord_attributes : ∀ attr ∈ form.attributes imported, Dotted.IsWord attr := by
  have last : ∀ attr ∈ [imported.name.val], Dotted.IsWord attr :=
    List.forall_mem_singleton.mpr (isWord_of_importable imported.name.property)
  cases form with
  | member => exact List.forall_mem_nil _
  | renamedMember other => exact List.forall_mem_nil _
  | module =>
    exact List.forall_mem_append.mpr
      ⟨List.forall_mem_map.mpr fun name _ => isWord_of_importable name.property, last⟩
  | renamedModule other => exact last

theorem dottedName?_reference : (form.reference imported).dottedName? =
    some (Dotted.join (form.head imported :: form.attributes imported)) :=
  Expr.dottedName?_attributes rfl (form.attributes imported)

theorem callTarget_reference : (form.reference imported).callTarget = form.reference imported := by
  have keeps (attributes : List String) (expr : Expr) (same : expr.callTarget = expr) :
      (attributes.foldl .attribute expr).callTarget = attributes.foldl .attribute expr := by
    induction attributes generalizing expr with
    | nil => exact same
    | cons attr rest ih => exact ih (.attribute expr attr) rfl
  exact keeps (form.attributes imported) _ rfl

/-- What the import binds the head to, extended by the attributes, is the full name. -/
theorem extend_target :
    Dotted.extend (form.target imported) (Dotted.join (form.attributes imported)) =
      imported.fullName := by
  rw [Dotted.extend_joined isWord_attributes]
  cases form with
  | member => exact Dotted.join_singleton _
  | renamedMember other => exact Dotted.join_singleton _
  | module =>
    rw [attributes, target, ← List.cons_append,
      Dotted.join_append (List.cons_ne_nil _ _) (List.cons_ne_nil _ _), Dotted.join_singleton]
    rfl
  | renamedModule other =>
    rw [attributes, target, Dotted.join_cons (List.cons_ne_nil _ _), Dotted.join_singleton]
    rfl

/-- The bindings of the statement around the import. -/
theorem statementBindings_eq (context : ModuleContext) (before after : List ImportedName) :
    statementBindings context (form.statement imported (before ++ form.entry imported :: after)) =
      statementBindings context (form.statement imported before) ++
        (form.head imported, form.target imported) ::
          statementBindings context (form.statement imported after) := by
  have named : imported.name.val ≠ "*" := by
    intro star
    have importable := imported.name.property
    rw [star] at importable
    revert importable
    decide
  have first : (Dotted.cut imported.path).1 = imported.first.val := by
    rw [ImportedMember.path, Dotted.cut_join (isWord_of_importable imported.first.property).2]
  cases form <;>
    simp [statement, entry, head, target, statementBindings, importedModule?, memberBindings,
      moduleBinding, ImportedMember.fullName, named, first]

/-- Names are recorded of an import only when it binds them. -/
theorem binds_of_recorded {context : ModuleContext} {names : List ImportedName}
    {entry : String × String}
    (recorded : entry ∈ statementBindings context (form.statement imported names)) :
    entry.1 ∈ (form.statement imported names).boundNames := by
  rcases mem_statementBindings recorded with binds | ⟨⟨type, annotates⟩, -⟩
  · exact binds
  · cases form <;> cases annotates

/-- The head refers to what the import binds it to, when nothing behind the import binds it, in the
same statement or later. -/
theorem lookup_eq (context : ModuleContext) {body : List Stmt} {later : List (List Stmt)}
    {before after : List ImportedName}
    (occurs : Occurs (form.statement imported (before ++ form.entry imported :: after)) body later)
    (kept : ¬Binds (form.head imported) ([form.statement imported after] :: later)) :
    (¬OnlyAnnotates (form.head imported) later →
      (moduleBindings context body).lookup (form.head imported) = some (form.target imported)) ∧
    (OnlyAnnotates (form.head imported) later →
      (moduleBindings context body).lookup (form.head imported) =
        some (context.module ++ "." ++ form.head imported)) := by
  have unbranched : branches (form.statement imported
      (before ++ form.entry imported :: after)) = [] := by
    cases form <;> rfl
  -- What the statement imports behind this name is part of what must not bind it again.
  refine occurs.lookup_eq unbranched (statementBindings_eq context before after) ?_ ?_
  · intro member
    obtain ⟨entry, recorded, same⟩ := List.mem_map.mp member
    refine kept ⟨_, List.mem_cons_self .., _, _, @Occurs.here _ [] [], ?_⟩
    rw [← same]
    exact binds_of_recorded recorded
  · rintro ⟨block, isLater, binds⟩
    exact kept ⟨block, List.mem_cons_of_mem _ isLater, binds⟩

end ImportForm

theorem LoadedModule.bindings_of_plain {home : LoadedModule} {file : SourceFile} {body : List Stmt}
    (indexed : home.plain = (Program.indexModule file body).plain) :
    home.bindings = moduleBindings home.context body := by
  have context : home.context = ⟨file.module, file.isPackage⟩ :=
    congrArg LoadedModule.context indexed
  rw [context]
  exact congrArg LoadedModule.bindings indexed

theorem LoadedModule.exists_declaration {home : LoadedModule} {file : SourceFile}
    {body : List Stmt} {header : ClassHeader}
    (indexed : home.plain = (Program.indexModule file body).plain) (inBody : header ∈ headers body) :
    ∃ declaration ∈ home.declarations, declaration.header = header := by
  rw [← headers_of_plain indexed] at inBody
  exact List.mem_map.mp inBody

namespace Program

variable {program : Program} {declaration : ClassDeclaration} {home : LoadedModule} {index : Nat}
  {decorator : Expr} {name target : String} {attributes : List String}

theorem annotationType_of_lookup (found : program.module? declaration.module = some home)
    (decorated : declaration.header.decorators[index]? = some decorator)
    (refers : decorator.callTarget.dottedName? = some (Dotted.join (name :: attributes)))
    (undotted : '.' ∉ name.toList) (bound : home.bindings.lookup name = some target) :
    program.annotationType declaration index =
      (program.canonicalName (Dotted.extend target (Dotted.join attributes))).map some := by
  simp only [annotationType, found, decorated, refers, resolve, expand?,
    Dotted.cut_join undotted, bound]

variable {form : ImportForm} {imported : ImportedMember}

theorem refers_of_decorator (refers : decorator = form.reference imported ∨
      ∃ arguments, decorator = .call (form.reference imported) arguments) :
    decorator.callTarget.dottedName? =
      some (Dotted.join (form.head imported :: form.attributes imported)) := by
  rw [← ImportForm.dottedName?_reference]
  rcases refers with rfl | ⟨arguments, rfl⟩
  · rw [ImportForm.callTarget_reference]
  · rfl

/-- A decorator that refers to an imported member, called or not, says what the full name of the
member leads to, if behind the import nothing binds the head of the reference, and nothing annotates
it without a value. Where something does annotate it, the decorator says what the head would lead to
as a definition of the module. `body` is the block that the module was indexed from. -/
theorem imported_annotationType [Characters] {limits : Limits} {cache : ParseCache}
    {files : List SourceFile}
    {loaded : Loaded} {file : SourceFile} {body : List Stmt} {later : List (List Stmt)}
    {before after : List ImportedName}
    (loads : load limits cache files = .ok loaded) (inProgram : home ∈ loaded.program.modules)
    (indexed : home.plain = (indexModule file body).plain)
    (occurs : Occurs (form.statement imported (before ++ form.entry imported :: after)) body later)
    (kept : ¬Binds (form.head imported) ([form.statement imported after] :: later))
    (declared : declaration ∈ home.declarations)
    (decorated : declaration.header.decorators[index]? = some decorator)
    (refers : decorator = form.reference imported ∨
      ∃ arguments, decorator = .call (form.reference imported) arguments) :
    (¬OnlyAnnotates (form.head imported) later →
      loaded.program.annotationType declaration index =
        (loaded.program.canonicalName imported.fullName).map some) ∧
    (OnlyAnnotates (form.head imported) later →
      loaded.program.annotationType declaration index =
        (loaded.program.canonicalName (Dotted.join
          (home.name :: form.head imported :: form.attributes imported))).map some) := by
  have found : loaded.program.module? declaration.module = some home := by
    rw [load_own loads inProgram declared]
    exact load_found loads inProgram
  have resolves (target : String) (bound : (moduleBindings home.context body).lookup
      (form.head imported) = some target) : loaded.program.annotationType declaration index =
        (loaded.program.canonicalName
          (Dotted.extend target (Dotted.join (form.attributes imported)))).map some := by
    rw [← LoadedModule.bindings_of_plain indexed] at bound
    exact annotationType_of_lookup found decorated (refers_of_decorator refers)
      ImportForm.isWord_head.2 bound
  obtain ⟨asImported, asOwn⟩ := ImportForm.lookup_eq home.context occurs kept
  constructor
  · intro unannotated
    rw [resolves _ (asImported unannotated), ImportForm.extend_target]
  · intro annotated
    rw [resolves _ (asOwn annotated), Dotted.extend_joined ImportForm.isWord_attributes,
      Dotted.join_cons_joined]
    rfl

def fileOf (text : String) : SourceFile := ⟨"m.py", "m", false, .ofString text⟩

/-- A program of one file has the module that its text defines. -/
theorem load_fileOf [Characters] {text : String} {body : List Stmt} (limits : Limits)
    (tree : freshTree text = some body) (shallow : branchDepth body ≤ maxBranchDepth) :
    ∃ loaded home, load limits .empty [fileOf text] = .ok loaded ∧
      home ∈ loaded.program.modules ∧ home.plain = (indexModule (fileOf text) body).plain := by
  have known : (fileOf text).text.toString? = some text := SourceText.toString?_ofString text
  have only : textsOf [fileOf text] = [text] := by simp [textsOf, known]
  obtain ⟨loaded, loads⟩ : ∃ loaded, load limits .empty [fileOf text] = .ok loaded := by
    refine exists_load limits (List.forall_mem_singleton.mpr ?_)
    rw [known, Option.isSome_some]
  have indexed : (fileOf text).body? = some body := by
    simp [SourceFile.body?, known, tree, shallow]
  obtain ⟨home, found, same⟩ := load_first (ParseCache.empty_faithful [text])
    (separated_singleton text) (by simp [only]) loads (List.nil_append [fileOf text]).symm
    (List.forall_mem_nil _) indexed
  exact ⟨loaded, home, loads, (module?_mem found).1, same⟩

def branchedImportText : String :=
  "try:\n if 1:\n  import p.q as x\nexcept E: pass\n@x.n(1)\nclass C: 0\n"

/-- What the text is read as. Trees cannot be compared, so the one that was read is known by its
shape. -/
def isBranchedImport : List Stmt → Bool
  | [.tryExcept _ [.ifElse _ [.importModules [⟨"p.q", some "x"⟩]] []] [[.simple _]] [] [],
      .classDef ⟨"C", _, [.call (.attribute (.name "x") "n") _], _, _⟩ [.simple _]] => true
  | _ => false

def branchedMember : ImportedMember := ⟨⟨"p", by decide⟩, [⟨"q", by decide⟩], ⟨"n", by decide⟩⟩

def branchedForm : ImportForm := .renamedModule ⟨"x", by decide⟩

theorem occurs_in_branches {stmt : Stmt} {parts : List Expr} {test : Expr}
    {handler behind : List Stmt} :
    Occurs stmt (.tryExcept parts [.ifElse test [stmt] []] [handler] [] [] :: behind)
      [[], [], [], handler, [], [], behind] := by
  have inIf : Occurs stmt [.ifElse test [stmt] []] [[], [], []] :=
    @Occurs.inside stmt [] _ [] [] [stmt] [[]] [[]] rfl (@Occurs.here stmt [] [])
  exact @Occurs.inside stmt [] _ behind [] _ [handler, [], []] _ rfl inIf

theorem imported_annotationType_branched :
    ∃ loaded declaration, load .standard .empty [fileOf branchedImportText] = .ok loaded ∧
      declaration ∈ loaded.program.declarations ∧
      loaded.program.annotationType declaration 0 =
        (loaded.program.canonicalName "p.q.n").map some := by
  have checked : (freshTree branchedImportText).any isBranchedImport = true := by decide +kernel
  obtain ⟨body, tree, isBranched⟩ := (Option.any_eq_true _ _).mp checked
  unfold isBranchedImport at isBranched
  split at isBranched
  · next parts test inHandler position arguments bases keywords inClass =>
    obtain ⟨loaded, home, loads, inProgram, same⟩ := load_fileOf .standard tree
      (by simp [branchDepth, statementBranchDepth, branchesDepth, maxBranchDepth])
    obtain ⟨declaration, declared, header⟩ := @LoadedModule.exists_declaration _ _ _
      ⟨"C", position, [.call (.attribute (.name "x") "n") arguments], bases, keywords⟩ same
      (by simp [headers, statementHeaders, headersOfAll])
    have statement : branchedForm.statement branchedMember
        ([] ++ branchedForm.entry branchedMember :: []) = .importModules [⟨"p.q", some "x"⟩] :=
      congrArg (fun path => Stmt.importModules [⟨path, some "x"⟩]) (by decide)
    rw [← statement] at same
    refine ⟨loaded, declaration, loads, List.mem_flatMap.mpr ⟨home, inProgram, declared⟩, ?_⟩
    refine (imported_annotationType loads inProgram same occurs_in_branches ?_ declared
      (by rw [header]; rfl) (.inr ⟨arguments, rfl⟩)).1 ?_
    · rw [Binds, exists_occurs_iff]
      simp [flatten, branchStatements, Stmt.boundNames, branchedForm, ImportForm.statement,
        ImportForm.head]
    · rw [OnlyAnnotates, exists_occurs_iff]
      simp [flatten, branchStatements, Stmt.OnlyAnnotates]
  · cases isBranched

def markerMember : ImportedMember :=
  ⟨⟨"enum_generators", by decide⟩, [], ⟨"enum_extensions", by decide⟩⟩

def annotatedImportText : String :=
  "from enum import Enum\nfrom enum_generators import enum_extensions\n" ++
    "enum_extensions: object\n@enum_extensions\nclass C(Enum): A = 1\n"

def isAnnotatedImport : List Stmt → Bool
  | [_, .importFrom 0 (some "enum_generators") [⟨"enum_extensions", none⟩],
      .annotated (.name "enum_extensions") _ none,
      .classDef ⟨"C", _, [.name "enum_extensions"], _, _⟩ _] => true
  | _ => false

/-- Nothing binds the name behind the import of the marker, but the decorator does not refer to the
marker. -/
theorem annotated_import_missed :
    ∃ loaded home body declaration later,
      load .standard .empty [fileOf annotatedImportText] = .ok loaded ∧
      home ∈ loaded.program.modules ∧
      home.plain = (indexModule (fileOf annotatedImportText) body).plain ∧
      Occurs (ImportForm.member.statement markerMember [ImportForm.member.entry markerMember]) body
        later ∧
      ¬Binds (ImportForm.member.head markerMember) later ∧
      declaration ∈ home.declarations ∧
      declaration.header.decorators = [ImportForm.member.reference markerMember] ∧
      loaded.program.canonicalName markerMember.fullName = .ok markerMember.fullName ∧
      loaded.program.annotationType declaration 0 = .ok (some "m.enum_extensions") := by
  have checked : (freshTree annotatedImportText).any (fun body =>
      branchDepth body ≤ maxBranchDepth && isAnnotatedImport body) = true := by decide +kernel
  obtain ⟨body, tree, holds⟩ := (Option.any_eq_true _ _).mp checked
  obtain ⟨shallow, isAnnotated⟩ := Bool.and_eq_true_iff.mp holds
  obtain ⟨loaded, home, loads, inProgram, same⟩ :=
    load_fileOf .standard tree (of_decide_eq_true shallow)
  have answers : (load .standard .empty [fileOf annotatedImportText]).toOption.any (fun loaded =>
      loaded.program.canonicalName markerMember.fullName = .ok markerMember.fullName ∧
      ∀ home ∈ loaded.program.modules, ∀ declaration ∈ home.declarations,
        loaded.program.annotationType declaration 0 = .ok (some "m.enum_extensions")) = true := by
    decide +kernel
  rw [loads] at answers
  obtain ⟨canonical, annotations⟩ := of_decide_eq_true answers
  unfold isAnnotatedImport at isAnnotated
  split at isAnnotated
  · next first type position bases keywords inClass =>
    obtain ⟨declaration, declared, header⟩ := @LoadedModule.exists_declaration _ _ _
      ⟨"C", position, [.name "enum_extensions"], bases, keywords⟩ same
      (by simp [headers, statementHeaders])
    have statement : .importFrom 0 (some "enum_generators") [⟨"enum_extensions", none⟩] =
        ImportForm.member.statement markerMember [ImportForm.member.entry markerMember] :=
      congrArg (fun path => Stmt.importFrom 0 (some path) [⟨"enum_extensions", none⟩]) (by decide)
    rw [statement] at same
    refine ⟨loaded, home, _, declaration, _, loads, inProgram, same, @Occurs.here _ [first] _, ?_,
      declared, by rw [header]; rfl, canonical, annotations home inProgram declaration declared⟩
    rw [Binds, exists_occurs_iff]
    simp [flatten, branchStatements, Stmt.boundNames, ImportForm.head, markerMember]
  · cases isAnnotated

end Program

end EnumLookup
