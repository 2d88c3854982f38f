import EnumLookup.Declaration.Class

/-!
What is collected from a block. Every declaration is made of a class statement in some scope of the
same file and module, so it is known by its module and its place.
-/
namespace EnumLookup.Declaration

open Source

def MadeIn (scope : Scope) (declarations : List ClassDeclaration) : Prop :=
  ∀ declaration ∈ declarations, ∃ inner header body, Scope.path inner = scope.path ∧
    Scope.module inner = scope.module ∧ declaration = inner.declaration header body

theorem MadeIn.nil (scope : Scope) : MadeIn scope [] := by simp [MadeIn]

theorem MadeIn.append {scope : Scope} {first rest : List ClassDeclaration}
    (inFirst : MadeIn scope first) (inRest : MadeIn scope rest) : MadeIn scope (first ++ rest) := by
  intro declaration member
  rcases List.mem_append.mp member with member | member
  · exact inFirst declaration member
  · exact inRest declaration member

theorem collect_madeIn (scope : Scope) (block : List Stmt) :
    MadeIn scope (collect scope block) := by
  refine collect.induct (fun scope block => MadeIn scope (collect scope block))
    (fun scope stmt => MadeIn scope (collectStatement scope stmt))
    (fun scope blocks => MadeIn scope (collectAll scope blocks)) ?_ ?_ ?_ ?_ ?_ ?_ ?_ ?_ scope block
  · intro scope header body inBody declaration member
    rw [collectStatement] at member
    rcases List.mem_cons.mp member with rfl | member
    · exact ⟨scope, header, body, rfl, rfl, rfl⟩
    · exact inBody declaration member
  · intro scope test body orelse inBody inElse
    rw [collectStatement]
    exact inBody.append inElse
  · intro scope parts body handlers orelse final inBody inHandlers inElse inFinal
    rw [collectStatement]
    exact inBody.append (inHandlers.append (inElse.append inFinal))
  · intro stmt scope noClass noIf noTry
    rw [collectStatement]
    · exact MadeIn.nil scope
    · exact noClass
    · exact noIf
    · exact noTry
  · intro scope
    exact MadeIn.nil scope
  · intro scope stmt rest inStmt inRest
    rw [collect]
    exact inStmt.append inRest
  · intro scope
    exact MadeIn.nil scope
  · intro scope block rest inBlock inRest
    rw [collectAll]
    exact inBlock.append inRest

/-- A declaration of a module, and its key: where it stands, and its qualified name. -/
theorem declarations_mem {path module : String} {body : List Stmt} {declaration : ClassDeclaration}
    (member : declaration ∈ declarations path module body) :
    declaration.module = module ∧ declaration.key =
      ⟨path, declaration.header.position.line, declaration.header.position.column,
        declaration.qualname⟩ := by
  obtain ⟨inner, header, statements, samePath, sameModule, rfl⟩ := collect_madeIn _ body _ member
  refine ⟨sameModule, ?_⟩
  simp only [Scope.declaration, samePath]

end EnumLookup.Declaration
