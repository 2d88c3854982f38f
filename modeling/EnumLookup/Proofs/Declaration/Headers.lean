import EnumLookup.Declaration.Class

/-!
The headers of declarations, which do not depend on where a block stands.
-/
namespace EnumLookup.Declaration

open Source

mutual
/-- The headers of the classes that a block declares, in the order of the source. -/
def headers : List Stmt → List ClassHeader
  | [] => []
  | stmt :: rest => statementHeaders stmt ++ headers rest

def statementHeaders : Stmt → List ClassHeader
  | .classDef header body => header :: headers body
  | .ifElse _ body orelse => headers body ++ headers orelse
  | .tryExcept _ body handlers orelse final =>
    headers body ++ (headersOfAll handlers ++ (headers orelse ++ headers final))
  | _ => []

def headersOfAll : List (List Stmt) → List ClassHeader
  | [] => []
  | block :: rest => headers block ++ headersOfAll rest
end

theorem headers_append (front back : List Stmt) :
    headers (front ++ back) = headers front ++ headers back := by
  induction front with
  | nil => rfl
  | cons stmt rest ih => rw [List.cons_append, headers, headers, ih, List.append_assoc]

theorem headers_flatten (blocks : List (List Stmt)) :
    headers blocks.flatten = blocks.flatMap headers := by
  induction blocks with
  | nil => rfl
  | cons block rest ih => rw [List.flatten_cons, headers_append, ih, List.flatMap_cons]

theorem headersOfAll_eq (blocks : List (List Stmt)) :
    headersOfAll blocks = blocks.flatMap headers := by
  induction blocks with
  | nil => rfl
  | cons block rest ih => rw [headersOfAll, ih, List.flatMap_cons]

theorem headers_singleton (stmt : Stmt) : headers [stmt] = statementHeaders stmt := by
  rw [headers, headers, List.append_nil]

theorem map_header_collect (scope : Scope) (block : List Stmt) :
    (collect scope block).map (·.header) = headers block := by
  refine collect.induct (fun scope block => (collect scope block).map (·.header) = headers block)
    (fun scope stmt => (collectStatement scope stmt).map (·.header) = statementHeaders stmt)
    (fun scope blocks => (collectAll scope blocks).map (·.header) = headersOfAll blocks)
    ?_ ?_ ?_ ?_ ?_ ?_ ?_ ?_ scope block
  · intro scope header body inBody
    rw [collectStatement, statementHeaders, List.map_cons, inBody]
    rfl
  · intro scope test body orelse inBody inElse
    rw [collectStatement, statementHeaders, List.map_append, inBody, inElse]
  · intro scope parts body handlers orelse final inBody inHandlers inElse inFinal
    simp only [collectStatement, statementHeaders, List.map_append, inBody, inHandlers, inElse,
      inFinal]
  · intro stmt scope noClass noIf noTry
    rw [collectStatement, statementHeaders, List.map_nil]
    all_goals assumption
  · intro scope
    rfl
  · intro scope stmt rest inStmt inRest
    rw [collect, headers, List.map_append, inStmt, inRest]
  · intro scope
    rfl
  · intro scope block rest inBlock inRest
    rw [collectAll, headersOfAll, List.map_append, inBlock, inRest]

end EnumLookup.Declaration
