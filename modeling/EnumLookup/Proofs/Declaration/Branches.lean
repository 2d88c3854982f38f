import EnumLookup.Declaration.Bindings

/-!
Where a statement stands in a block: in the block itself, or at any depth of the branches in it.
Behind it come the branches and statements that follow in the source, outwards from its own block.
Flattening a block lists exactly the statements in it, in this order.
-/
namespace EnumLookup.Declaration

open Source

/-- The blocks of a statement that belong to the block it stands in, in the order of the source. -/
def branches : Stmt → List (List Stmt)
  | .ifElse _ body orelse => [body, orelse]
  | .tryExcept _ body handlers orelse final => body :: (handlers ++ [orelse, final])
  | _ => []

/-- The statement stands in the block, directly or in a branch; `later` is what the source has
behind it, up to the end of the block. -/
inductive Occurs (stmt : Stmt) : List Stmt → List (List Stmt) → Prop
  | here {before after} : Occurs stmt (before ++ stmt :: after) [after]
  | inside {before outer after earlier branch others later}
      (place : branches outer = earlier ++ branch :: others) (occurs : Occurs stmt branch later) :
      Occurs stmt (before ++ outer :: after) (later ++ others ++ [after])

variable {stmt first : Stmt} {block rest : List Stmt} {later : List (List Stmt)}

theorem flatten_append (front back : List Stmt) :
    flatten (front ++ back) = flatten front ++ flatten back := by
  induction front with
  | nil => rfl
  | cons first rest ih => simp only [List.cons_append, flatten, ih, List.append_assoc]

theorem flattenAll_eq (blocks : List (List Stmt)) : flattenAll blocks = blocks.flatMap flatten := by
  induction blocks with
  | nil => rfl
  | cons block rest ih => rw [flattenAll, List.flatMap_cons, ih]

theorem branchStatements_eq (stmt : Stmt) : branchStatements stmt = flattenAll (branches stmt) := by
  cases stmt with
  | ifElse test body orelse => simp [branchStatements, branches, flattenAll]
  | tryExcept parts body handlers orelse final =>
    simp [branchStatements, branches, flattenAll_eq]
  | _ => rfl

theorem flatten_cons (stmt : Stmt) (rest : List Stmt) :
    flatten (stmt :: rest) = stmt :: ((branches stmt).flatMap flatten ++ flatten rest) := by
  rw [flatten, branchStatements_eq, flattenAll_eq]

/-- A block is flattened around a statement in it: its branches come next, then what stands behind
it. -/
theorem Occurs.flatten_eq (occurs : Occurs stmt block later) : ∃ before, flatten block =
    before ++ stmt :: ((branches stmt).flatMap flatten ++ later.flatMap flatten) := by
  induction occurs with
  | @here before after =>
    refine ⟨flatten before, ?_⟩
    rw [flatten_append, flatten_cons, List.flatMap_singleton]
  | @inside before outer after earlier branch others later place _ ih =>
    obtain ⟨inBranch, around⟩ := ih
    refine ⟨flatten before ++ outer :: (earlier.flatMap flatten ++ inBranch), ?_⟩
    rw [flatten_append, flatten_cons, place, List.flatMap_append, List.flatMap_cons, around]
    simp only [List.flatMap_append, List.flatMap_singleton, List.append_assoc, List.cons_append]

theorem Occurs.cons (occurs : Occurs stmt rest later) (first : Stmt) :
    Occurs stmt (first :: rest) later := by
  cases occurs with
  | @here before after => exact @here stmt (first :: before) after
  | @inside before _ _ _ _ _ _ place occurs =>
    exact @inside stmt (first :: before) _ _ _ _ _ _ place occurs

/-- What holds of the empty block, and of a block when it holds of the branches of its first
statement and of the rest, holds of every block. -/
theorem block_induction {motive : List Stmt → Prop} (nil : motive [])
    (cons : ∀ stmt rest, (∀ branch ∈ branches stmt, motive branch) → motive rest →
      motive (stmt :: rest)) (block : List Stmt) : motive block := by
  refine flatten.induct motive (fun stmt => ∀ branch ∈ branches stmt, motive branch)
    (fun blocks => ∀ block ∈ blocks, motive block) ?_ ?_ ?_ nil cons ?_ ?_ block
  · intro test body orelse inBody inElse
    simp [branches, inBody, inElse]
  · intro parts body handlers orelse final inBody inHandlers inElse inFinal
    simp only [branches, List.forall_mem_cons, List.forall_mem_append]
    exact ⟨inBody, inHandlers, inElse, inFinal, by simp⟩
  · intro stmt noIf noTry branch member
    cases stmt with
    | ifElse test body orelse => exact absurd rfl (noIf test body orelse)
    | tryExcept parts body handlers orelse final =>
      exact absurd rfl (noTry parts body handlers orelse final)
    | _ => cases member
  · simp
  · intro block rest inBlock inRest
    exact List.forall_mem_cons.mpr ⟨inBlock, inRest⟩

/-- The statements that a block is flattened to are those that stand in it. -/
theorem mem_flatten : stmt ∈ flatten block ↔ ∃ later, Occurs stmt block later := by
  constructor
  · induction block using block_induction with
    | nil => simp [flatten]
    | cons outer rest inBranches inRest =>
      rw [flatten_cons, List.mem_cons, List.mem_append, List.mem_flatMap]
      rintro (rfl | ⟨branch, isBranch, member⟩ | member)
      · exact ⟨[rest], @Occurs.here stmt [] rest⟩
      · obtain ⟨earlier, others, place⟩ := List.append_of_mem isBranch
        obtain ⟨later, occurs⟩ := inBranches branch isBranch member
        exact ⟨later ++ others ++ [rest], @Occurs.inside stmt [] _ _ _ _ _ _ place occurs⟩
      · obtain ⟨later, occurs⟩ := inRest member
        exact ⟨later, occurs.cons outer⟩
  · rintro ⟨later, occurs⟩
    obtain ⟨before, around⟩ := occurs.flatten_eq
    simp [around]

end EnumLookup.Declaration
