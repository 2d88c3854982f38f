import EnumLookup.Proofs.Declaration.Collected
import EnumLookup.Proofs.Text.Dotted

/-!
Where declarations stand. A collected declaration is that of a class statement directly in the
block, or directly in the body of another collected declaration, and every such statement is
collected. Directly means in the block itself or in a branch of it.
-/
namespace EnumLookup.Declaration

open Source Text

abbrev ClassStatement := ClassHeader × List Stmt

def classStatements (statements : List Stmt) : List ClassStatement :=
  statements.filterMap fun
    | .classDef header body => some (header, body)
    | _ => none

def declaredNames (statements : List Stmt) : List String :=
  (classStatements statements).map (·.1.name)

def directClasses (block : List Stmt) : List ClassStatement := classStatements (flatten block)

def ClassDeclaration.inside (declaration : ClassDeclaration) : Scope :=
  ⟨declaration.key.path, declaration.module, declaration.qualname⟩

def Scope.declare (scope : Scope) (statement : ClassStatement) : ClassDeclaration :=
  scope.declaration statement.1 statement.2

/-- The declarations come from class statements in a scope, or from class statements directly in
the bodies of declarations, and from all of these. -/
structure Nesting (scope : Scope) (statements : List ClassStatement)
    (declarations : List ClassDeclaration) : Prop where
  outer : ∀ statement ∈ statements, scope.declare statement ∈ declarations
  inner : ∀ enclosing ∈ declarations, ∀ statement ∈ directClasses enclosing.body,
    enclosing.inside.declare statement ∈ declarations
  origin : ∀ declaration ∈ declarations,
    (∃ statement ∈ statements, declaration = scope.declare statement) ∨
    ∃ enclosing ∈ declarations, ∃ statement ∈ directClasses enclosing.body,
      declaration = enclosing.inside.declare statement

theorem Nesting.nil (scope : Scope) : Nesting scope [] [] := by
  constructor <;> simp

variable {scope : Scope} {statements others : List ClassStatement}
  {first rest : List ClassDeclaration} {header : ClassHeader} {body : List Stmt}

theorem Nesting.append (one : Nesting scope statements first) (two : Nesting scope others rest) :
    Nesting scope (statements ++ others) (first ++ rest) := by
  constructor
  · intro statement member
    rcases List.mem_append.mp member with inOne | inTwo
    · exact List.mem_append_left _ (one.outer statement inOne)
    · exact List.mem_append_right _ (two.outer statement inTwo)
  · intro enclosing member statement direct
    rcases List.mem_append.mp member with inOne | inTwo
    · exact List.mem_append_left _ (one.inner enclosing inOne statement direct)
    · exact List.mem_append_right _ (two.inner enclosing inTwo statement direct)
  · intro declaration member
    rcases List.mem_append.mp member with inOne | inTwo
    · rcases one.origin declaration inOne with
        ⟨statement, inside, same⟩ | ⟨enclosing, inside, nested⟩
      · exact .inl ⟨statement, List.mem_append_left _ inside, same⟩
      · exact .inr ⟨enclosing, List.mem_append_left _ inside, nested⟩
    · rcases two.origin declaration inTwo with
        ⟨statement, inside, same⟩ | ⟨enclosing, inside, nested⟩
      · exact .inl ⟨statement, List.mem_append_right _ inside, same⟩
      · exact .inr ⟨enclosing, List.mem_append_right _ inside, nested⟩

/-- A class with what its body declares. -/
theorem Nesting.classDef (inBody : Nesting (scope.enter header) (directClasses body) rest) :
    Nesting scope [(header, body)] (scope.declaration header body :: rest) := by
  constructor
  · simp [Scope.declare]
  · intro enclosing member statement direct
    apply List.mem_cons_of_mem
    rcases List.mem_cons.mp member with rfl | inRest
    · exact inBody.outer statement direct
    · exact inBody.inner enclosing inRest statement direct
  · intro declaration member
    rcases List.mem_cons.mp member with rfl | inRest
    · exact .inl ⟨_, List.mem_cons_self .., rfl⟩
    · refine .inr ?_
      rcases inBody.origin declaration inRest with
        ⟨statement, direct, rfl⟩ | ⟨enclosing, inside, nested⟩
      · exact ⟨scope.declaration header body, List.mem_cons_self .., statement, direct, rfl⟩
      · exact ⟨enclosing, List.mem_cons_of_mem _ inside, nested⟩

theorem classStatements_append (front back : List Stmt) :
    classStatements (front ++ back) = classStatements front ++ classStatements back :=
  List.filterMap_append

/-- The declarations of a block by those of its statements: what holds of no statements, of a class
with its body, and of statements in turn, holds of every block. -/
theorem collect_induction
    {motive : Scope → List ClassStatement → List ClassDeclaration → Prop}
    (nil : ∀ scope, motive scope [] [])
    (append : ∀ scope statements others first rest, motive scope statements first →
      motive scope others rest → motive scope (statements ++ others) (first ++ rest))
    (classDef : ∀ scope header body,
      motive (scope.enter header) (directClasses body) (collect (scope.enter header) body) →
      motive scope [(header, body)]
        (scope.declaration header body :: collect (scope.enter header) body))
    (scope : Scope) (block : List Stmt) :
    motive scope (directClasses block) (collect scope block) := by
  refine collect.induct (fun scope block => motive scope (directClasses block) (collect scope block))
    (fun scope stmt => motive scope (classStatements (stmt :: branchStatements stmt))
      (collectStatement scope stmt))
    (fun scope blocks => motive scope (classStatements (flattenAll blocks))
      (collectAll scope blocks)) ?_ ?_ ?_ ?_ ?_ ?_ ?_ ?_ scope block
  · intro scope header body inBody
    exact classDef scope header body inBody
  · intro scope test body orelse inBody inElse
    have statements : classStatements (.ifElse test body orelse :: (flatten body ++ flatten orelse)) =
        directClasses body ++ directClasses orelse := classStatements_append ..
    rw [collectStatement, branchStatements, statements]
    exact append _ _ _ _ _ inBody inElse
  · intro scope parts body handlers orelse final inBody inHandlers inElse inFinal
    have statements : classStatements (.tryExcept parts body handlers orelse final ::
        (flatten body ++ (flattenAll handlers ++ (flatten orelse ++ flatten final)))) =
        directClasses body ++ (classStatements (flattenAll handlers) ++
          (directClasses orelse ++ directClasses final)) := by
      simp only [directClasses, ← classStatements_append]
      rfl
    rw [collectStatement, branchStatements, statements]
    exact append _ _ _ _ _ inBody
      (append _ _ _ _ _ inHandlers (append _ _ _ _ _ inElse inFinal))
  · intro stmt scope noClass noIf noTry
    have statements : classStatements [stmt] = [] := by
      cases stmt <;> first | rfl | exact absurd rfl (noClass _ _)
    rw [collectStatement, branchStatements, statements]
    · exact nil scope
    all_goals assumption
  · intro scope
    exact nil scope
  · intro scope stmt rest inStmt inRest
    rw [collect, directClasses, flatten, ← List.cons_append, classStatements_append]
    exact append _ _ _ _ _ inStmt inRest
  · intro scope
    exact nil scope
  · intro scope block rest inBlock inRest
    rw [collectAll, flattenAll, classStatements_append]
    exact append _ _ _ _ _ inBlock inRest

theorem collect_nesting (scope : Scope) (block : List Stmt) :
    Nesting scope (directClasses block) (collect scope block) :=
  collect_induction Nesting.nil (fun _ _ _ _ _ inFirst inRest => inFirst.append inRest)
    (fun _ _ _ inBody => inBody.classDef) scope block

def Scope.declareAll (scope : Scope) (statement : ClassStatement) : List ClassDeclaration :=
  scope.declare statement :: collect (scope.enter statement.1) statement.2

theorem collect_eq_flatMap (scope : Scope) (block : List Stmt) :
    collect scope block = (directClasses block).flatMap scope.declareAll := by
  refine collect_induction (motive := fun scope statements declarations =>
    declarations = statements.flatMap scope.declareAll) ?_ ?_ ?_ scope block
  · intro scope
    rfl
  · intro scope statements others first rest inFirst inRest
    rw [List.flatMap_append, inFirst, inRest]
  · intro scope header body _
    rw [List.flatMap_singleton]
    rfl

end EnumLookup.Declaration
