import EnumLookup.Proofs.Declaration.Headers
import EnumLookup.Proofs.Source.Patterns
import EnumLookup.Source.Grammar.Statement
import Mathlib

set_option mvcgen.warning false

/-!
What the parsers of statements read. The class statements of a block are read from the tokens in
front of those that are left, in the order of the tokens, and named by name tokens.
-/
namespace EnumLookup.Source

open Declaration EnumLookup.Source.Parser Std.Do

attribute [local grind →] List.IsSuffix.trans

def Token.opensClass (token : Token) : Bool := token.kind = .keyword "class"

def classPositions (tokens : List Token) : List Position :=
  (tokens.filter Token.opensClass).map (·.position)

theorem classPositions_append (front back : List Token) :
    classPositions (front ++ back) = classPositions front ++ classPositions back := by
  rw [classPositions, List.filter_append, List.map_append]
  rfl

theorem classPositions_cons {token : Token} (opens : token.opensClass = true)
    (rest : List Token) : classPositions (token :: rest) = token.position :: classPositions rest := by
  rw [classPositions, List.filter_cons_of_pos opens, List.map_cons]
  rfl

structure Spell (tokens : List Token) (headers : List ClassHeader) : Prop where
  ordered : (headers.map (·.position)).Sublist (classPositions tokens)
  named : ∀ header ∈ headers, ∃ token ∈ tokens, ∃ spelling, token.kind = .name spelling header.name

/-- The headers stand among the tokens that are read until these are left. -/
def Reads (start : List Token) (headers : List ClassHeader) (left : List Token) : Prop :=
  ∃ read, read ++ left = start ∧ Spell read headers

variable {start middle left : List Token} {one two : List ClassHeader}

@[grind ←]
theorem Reads.nil (suffix : left <:+ start) : Reads start [] left := by
  obtain ⟨read, rfl⟩ := suffix
  exact ⟨read, rfl, List.nil_sublist _, by simp⟩

@[grind →]
theorem Reads.suffix (reads : Reads start one left) : left <:+ start := by
  obtain ⟨read, rfl, -⟩ := reads
  exact List.suffix_append read left

@[grind →]
theorem Reads.append (front : Reads start one middle) (back : Reads middle two left) :
    Reads start (one ++ two) left := by
  obtain ⟨first, rfl, spellOne⟩ := front
  obtain ⟨second, rfl, spellTwo⟩ := back
  refine ⟨first ++ second, List.append_assoc .., ?_, fun header member => ?_⟩
  · rw [List.map_append, classPositions_append]
    exact spellOne.ordered.append spellTwo.ordered
  · rcases List.mem_append.mp member with inOne | inTwo
    · obtain ⟨token, among, named⟩ := spellOne.named header inOne
      exact ⟨token, List.mem_append_left _ among, named⟩
    · obtain ⟨token, among, named⟩ := spellTwo.named header inTwo
      exact ⟨token, List.mem_append_right _ among, named⟩

@[grind →]
theorem Reads.after (suffix : middle <:+ start) (reads : Reads middle one left) :
    Reads start one left :=
  (Reads.nil suffix).append reads

@[grind →]
theorem Reads.before (reads : Reads start one middle) (suffix : left <:+ middle) :
    Reads start one left := by
  simpa using reads.append (Reads.nil suffix)

/-- A class with what is read after its name. -/
theorem Reads.cons {word : Token} {header : ClassHeader} {next behind : List Token}
    (begins : start = word :: next) (opens : word.opensClass = true)
    (position : word.position = header.position)
    (suffix : middle <:+ next)
    (named : ∃ token spelling, middle = token :: behind ∧ token.kind = .name spelling header.name)
    (reads : Reads behind one left) : Reads start (header :: one) left := by
  obtain ⟨token, spelling, rfl, kind⟩ := named
  obtain ⟨between, rfl⟩ := suffix
  subst begins
  have itself : Reads (word :: (between ++ token :: behind)) [header] behind := by
    refine ⟨word :: (between ++ [token]), by simp, ?_, ?_⟩
    · rw [classPositions_cons opens, position]
      exact (List.nil_sublist _).cons_cons _
    · simpa using .inr (.inr ⟨spelling, kind⟩)
  exact itself.append reads

namespace Parser

variable {α : Type}

abbrev Reading (start : List Token) (headersOf : α → List ClassHeader) (parser : Parser α) : Prop :=
  ⦃fun tokens => ⌜tokens <:+ start⌝⦄ parser
    ⦃⇓? value left => ⌜Reads start (headersOf value) left⌝⦄

theorem next_takes :
    ⦃fun tokens => ⌜tokens = start⌝⦄ next ⦃⇓? token left => ⌜start = token :: left⌝⦄ :=
  triple_iff.mpr fun tokens _ _ same outcome => by
    subst same
    cases tokens with
    | nil => cases outcome
    | cons =>
      cases outcome
      rfl

/-- A condition that is required holds when the parser goes on. -/
theorem require_holds (condition : Bool) : ⦃fun tokens => ⌜tokens <:+ start⌝⦄ require condition
    ⦃⇓? _ left => ⌜left <:+ start ∧ condition = true⌝⦄ :=
  triple_iff.mpr fun _ _ _ inside outcome => by
    unfold require at outcome
    split at outcome
    · next holds =>
      cases outcome
      exact ⟨inside, holds⟩
    · cases outcome

theorem identifier_takes : ⦃fun tokens => ⌜tokens = start⌝⦄ identifier ⦃⇓? name left =>
    ⌜∃ token spelling, start = token :: left ∧ token.kind = .name spelling name⌝⦄ :=
  triple_iff.mpr fun tokens _ _ same outcome => by
    subst same
    unfold identifier at outcome
    split at outcome
    · cases outcome
      exact ⟨_, _, rfl, rfl⟩
    · cases outcome

theorem fail_reads {headersOf : α → List ClassHeader} : Reading start headersOf fail :=
  triple_iff.mpr fun _ _ _ _ outcome => by cases outcome

theorem manyFrom_reads {headersOf : α → List ClassHeader} {continues : Parser Bool}
    {parser : Parser α} (decides : ∀ start, Advances start continues)
    (reads : ∀ start, Reading start headersOf parser) (bound start : List Token) :
    Reading start (·.flatMap headersOf) (manyFrom continues parser bound) := by
  induction bound generalizing start with
  | nil => exact fail_reads
  | cons _ bound ih =>
    mvcgen [manyFrom, decides, reads, ih]
    · next inside _ _ _ suffix _ _ first _ _ rest =>
      exact (first.after (suffix.trans inside)).append rest
    · next inside _ _ _ suffix => exact Reads.nil (suffix.trans inside)

theorem bounded_reads {headersOf : α → List ClassHeader} {loop : List Token → Parser α}
    (loops : ∀ bound start, Reading start headersOf (loop bound)) :
    Reading start headersOf (bounded loop) :=
  fun tokens inside => loops tokens start tokens inside

theorem many_reads {headersOf : α → List ClassHeader} {continues : Parser Bool}
    {parser : Parser α} (decides : ∀ start, Advances start continues)
    (reads : ∀ start, Reading start headersOf parser) :
    Reading start (·.flatMap headersOf) (many continues parser) :=
  bounded_reads (manyFrom_reads decides reads)

theorem orElse_reads {headersOf : α → List ClassHeader} {first second : Parser α}
    (one : Reading start headersOf first) (two : Reading start headersOf second) :
    Reading start headersOf (orElse first second) :=
  triple_iff.mpr fun tokens value left inside outcome => by
    unfold orElse at outcome
    split at outcome
    · next found =>
      cases outcome
      exact triple_iff.mp one tokens value left inside found
    · exact triple_iff.mp two tokens value left inside outcome

end Parser

namespace StmtGrammar

attribute [local grind =] statementHeaders

section Simple

variable (g : StmtGrammar) [g.exprs.Advancing]

@[spec] theorem assigned_advances : Advances start g.assigned := by
  mvcgen [assigned] with grind

@[spec] theorem dottedName_advances : Advances start dottedName := by
  mvcgen [dottedName] with grind

@[spec] theorem asName?_advances : Advances start asName? :=
  when?_advances (fun _ => keyword?_advances _) fun _ => identifier_advances

@[spec] theorem importLevel_advances : Advances start importLevel := by
  mvcgen [importLevel] with grind

@[spec] theorem importedName_advances : Advances start importedName := by
  mvcgen [importedName] with grind

@[spec] theorem importedNames_advances : Advances start importedNames := by
  mvcgen [importedNames] with grind

@[spec] theorem atStatementEnd_advances : Advances start atStatementEnd := by
  mvcgen [atStatementEnd] with grind


@[spec] theorem importStatement_reads : Reading start statementHeaders importStatement := by
  mvcgen [importStatement] with grind

@[spec] theorem fromStatement_reads : Reading start statementHeaders fromStatement := by
  mvcgen [fromStatement] with grind

@[spec] theorem delStatement_reads : Reading start statementHeaders g.delStatement := by
  mvcgen [delStatement] with grind

@[spec] theorem raiseStatement_reads : Reading start statementHeaders g.raiseStatement := by
  mvcgen [raiseStatement] with grind

@[spec] theorem assertStatement_reads : Reading start statementHeaders g.assertStatement := by
  mvcgen [assertStatement] with grind

@[spec] theorem returnStatement_reads : Reading start statementHeaders g.returnStatement := by
  mvcgen [returnStatement] with grind

@[spec] theorem scopeStatement_reads : Reading start statementHeaders scopeStatement := by
  mvcgen [scopeStatement] with grind

@[spec] theorem wordStatement_reads : Reading start statementHeaders wordStatement := by
  mvcgen [wordStatement] with grind

@[spec] theorem assignmentFrom_reads (bound : List Token) (targets : List Expr) :
    Reading start statementHeaders (g.assignmentFrom bound targets) := by
  induction bound generalizing targets start with
  | nil => exact fail_reads
  | cons _ bound ih => mvcgen [assignmentFrom, ih] with grind

theorem assignment_reads (targets : List Expr) :
    Reading start statementHeaders (bounded fun bound => g.assignmentFrom bound targets) :=
  bounded_reads fun bound _ => g.assignmentFrom_reads bound targets

@[spec] theorem expressionStatement_reads :
    Reading start statementHeaders g.expressionStatement := by
  mvcgen [expressionStatement, assignment_reads, -bounded_advances] with grind

@[spec] theorem simpleStatement_reads : Reading start statementHeaders g.simpleStatement := by
  mvcgen [simpleStatement] with grind

@[spec] theorem simpleStatementsFrom_reads (bound : List Token) :
    Reading start headers (g.simpleStatementsFrom bound) := by
  induction bound generalizing start with
  | nil => exact fail_reads
  | cons _ bound ih =>
    mvcgen [simpleStatementsFrom, ih] with grind [headers, headers_singleton]

@[spec] theorem simpleStatements_reads : Reading start headers g.simpleStatements :=
  bounded_reads fun bound _ => g.simpleStatementsFrom_reads bound

@[spec] theorem typeNote_advances {value : Parser Expr} (values : ∀ start, Advances start value) :
    Advances start (typeNote value) := by
  mvcgen [typeNote, values] with grind

instance : g.functionStyle.Advancing where
  typed _ := typeNote_advances fun _ => g.exprs.expression_advances
  starTyped _ := typeNote_advances fun _ =>
    g.exprs.starred_advances fun _ => g.exprs.expression_advances

@[spec] theorem decorator_advances : Advances start g.decorator := by
  mvcgen [decorator] with grind

@[spec] theorem atItemEnd_advances : Advances start atItemEnd := by
  mvcgen [atItemEnd] with grind

@[spec] theorem withItem_advances : Advances start g.withItem := by
  mvcgen [withItem] with grind

@[spec] theorem withItems_advances : Advances start g.withItems := by
  mvcgen [withItems] with grind

@[spec] theorem subject_advances : Advances start g.subject := by
  mvcgen [subject] with grind

/-- Blocks are read with their headers, and what stands in statements is taken from the front. -/
class Orderly (g : StmtGrammar) : Prop where
  exprs : g.exprs.Advancing
  pattern : ∀ start, Advances start g.pattern
  block : ∀ start, Reading start headers g.block

end Simple

section Compound

variable (g : StmtGrammar) [g.Orderly]

instance : g.exprs.Advancing := Orderly.exprs

@[spec] theorem pattern_advances : Advances start g.pattern := Orderly.pattern start

@[spec] theorem block_reads : Reading start headers g.block := Orderly.block start

@[spec] theorem suite_reads : Reading start headers g.suite := by
  mvcgen [suite] with grind

@[spec] theorem elseBlock_reads : Reading start headers g.elseBlock := by
  mvcgen [elseBlock] with grind [headers]

@[spec] theorem functionStatement_reads (decorators : List Expr) :
    Reading start statementHeaders (g.functionStatement decorators) := by
  mvcgen [functionStatement] with grind

-- The word and the name of a class must be among the tokens read, so it does not do here that the
-- parsers for single tokens leave an end; nor that the check of the word does.
@[spec] theorem classStatement_reads (decorators : List Expr) :
    Reading start statementHeaders (g.classStatement decorators) := by
  mvcgen [classStatement, next_takes, require_holds, identifier_takes, -next_advances,
    -require_advances, -identifier_advances]
  · next inside _ _ begins _ _ required _ _ named _ _ _ _ opened _ _ _ closed _ _ body =>
    exact (Reads.cons begins required.2 rfl required.1 named
      (body.after (closed.trans opened))).after inside
  · next inside _ _ begins _ _ required _ _ named _ _ _ _ unopened _ _ _ body =>
    exact (Reads.cons begins required.2 rfl required.1 named (body.after unopened)).after inside

@[spec] theorem decoratedStatement_reads : Reading start statementHeaders g.decoratedStatement := by
  mvcgen [decoratedStatement] with grind

@[spec] theorem guarded_reads (word : String) :
    Reading start (fun branch => headers branch.2) (g.guarded word) := by
  mvcgen [guarded] with grind

@[spec] theorem whileStatement_reads : Reading start statementHeaders g.whileStatement := by
  mvcgen [whileStatement] with grind

@[spec] theorem forStatement_reads : Reading start statementHeaders g.forStatement := by
  mvcgen [forStatement] with grind

@[spec] theorem withStatement_reads : Reading start statementHeaders g.withStatement := by
  mvcgen [withStatement] with grind

@[spec] theorem handler_reads (isStar : Bool) :
    Reading start (fun handler => headers handler.2) (g.handler isStar) := by
  mvcgen [handler] with grind

@[spec] theorem asyncStatement_reads : Reading start statementHeaders g.asyncStatement := by
  mvcgen [asyncStatement] with grind

theorem headers_branches (branches : List (Expr × List Stmt)) (last : List Stmt) :
    headers (branches.foldr (fun (test, body) orelse => [.ifElse test body orelse]) last) =
      branches.flatMap (fun branch => headers branch.2) ++ headers last := by
  induction branches with
  | nil => rfl
  | cons branch rest ih =>
    rw [List.foldr_cons, headers_singleton, statementHeaders, ih, List.flatMap_cons,
      List.append_assoc]

theorem branches_reads : Reading start (·.flatMap fun branch => headers branch.2)
    (many (nextIsKeyword "elif") (g.guarded "elif")) :=
  many_reads (fun _ => nextIsKeyword_advances _) fun _ => g.guarded_reads _

@[spec] theorem ifStatement_reads : Reading start statementHeaders g.ifStatement := by
  mvcgen [ifStatement, branches_reads, -many_advances] with grind [headers_branches]

theorem handlers_reads (isStar : Bool) : Reading start (·.flatMap fun handler => headers handler.2)
    (many (nextIsKeyword "except") (g.handler isStar)) :=
  many_reads (fun _ => nextIsKeyword_advances _) fun _ => g.handler_reads _

theorem final_reads : Reading start (fun final => headers (final.getD []))
    (when? (keyword? "finally") g.suite) := by
  mvcgen [when?, -when?_advances] with grind [headers]

theorem headersOfAll_handlers (handlers : List (List Expr × List Stmt)) :
    headersOfAll (handlers.map (·.2)) = handlers.flatMap fun handler => headers handler.2 := by
  rw [headersOfAll_eq, List.flatMap_map]

@[spec] theorem tryStatement_reads : Reading start statementHeaders g.tryStatement := by
  mvcgen [tryStatement, handlers_reads, final_reads, -many_advances, -when?_advances]
    with grind [headers, headersOfAll_handlers]

@[spec] theorem caseBlock_advances : Advances start g.caseBlock := by
  mvcgen [caseBlock] with grind

@[spec] theorem matchStatement_reads : Reading start statementHeaders g.matchStatement := by
  mvcgen [matchStatement] with grind

theorem matchOrSimple_reads : Reading start headers
    (orElse (do return [← g.matchStatement]) g.simpleStatements) := by
  apply orElse_reads
  · mvcgen with grind [headers_singleton]
  · exact g.simpleStatements_reads

@[spec] theorem statement_reads : Reading start headers g.statement := by
  mvcgen [statement, matchOrSimple_reads, -orElse_advances] with grind [headers_singleton]

@[spec] theorem atBlockEnd_advances : Advances start atBlockEnd := by
  mvcgen [atBlockEnd] with grind

theorem body_reads : Reading start (·.flatMap headers)
    (many (return !(← atBlockEnd)) g.statement) := by
  refine many_reads (fun start => ?_) fun _ => g.statement_reads
  mvcgen with grind

@[spec] theorem statements_reads : Reading start headers g.statements := by
  mvcgen [statements, body_reads, -many_advances] with grind [headers_flatten]

@[spec] theorem blockLevel_reads : Reading start headers g.blockLevel := by
  mvcgen [blockLevel] with grind

omit [g.Orderly] in
theorem ofDepth_orderly (exprs : ExprGrammar) [exprs.Advancing] {pattern : Parser PUnit}
    (nested : ∀ start, Advances start pattern) (depth : Nat) :
    (ofDepth exprs pattern depth).Orderly := by
  induction depth with
  | zero => exact ⟨‹_›, nested, fun _ => fail_reads⟩
  | succ depth ih => exact ⟨‹_›, nested, fun _ => (ofDepth exprs pattern depth).blockLevel_reads⟩

end Compound

end StmtGrammar

end EnumLookup.Source
