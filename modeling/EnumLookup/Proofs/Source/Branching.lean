import EnumLookup.Proofs.Loading
import Mathlib

/-!
Long chains of branches. Each branch of an `if` statement is nested in the last block of the one
before it, so a chain can be longer than what is indexed, while its tree is no deeper than trees may
be. The chains here are as simple as can be; they are parsed step by step, at any length.
-/
namespace EnumLookup.Source

open Declaration Text

namespace Lexer

variable {lexer : Lexer} {fuel : Nat}

theorem tokens_startLine (first : List Token) (next : Lexer) (starts : lexer.lineStart = true)
    (line : lexer.startLine = some (first, next)) :
    tokens (fuel + 1) lexer = (tokens fuel next).map (first ++ ·) := by
  rw [tokens, if_pos starts, line]
  cases others : tokens fuel next <;> simp [others]

theorem tokens_nextToken (first : List Token) (next : Lexer) (inside : lexer.lineStart = false)
    (more : lexer.skipBlanks.input.isEmpty = false)
    (token : lexer.skipBlanks.nextToken = some (first, next)) :
    tokens (fuel + 1) lexer = (tokens fuel next).map (first ++ ·) := by
  rw [tokens, if_neg (by simp [inside])]
  dsimp only
  rw [if_neg (by simp [more]), token]
  cases others : tokens fuel next <;> simp [others]

def branchTokens (line column : Nat) : List Token :=
  [⟨.number false, ⟨line, column + 1⟩⟩, ⟨.op ":", ⟨line, column + 2⟩⟩,
    ⟨.keyword "pass", ⟨line, column + 4⟩⟩, ⟨.newline, ⟨line, column + 8⟩⟩]

theorem tokens_branch (fuel line column : Nat) (rest : List Char) :
    tokens (fuel + 4) ⟨⟨line, column⟩, " 0: pass\n".toList ++ rest, [], [], false⟩ =
      (tokens fuel ⟨⟨line + 1, 0⟩, rest, [], [], true⟩).map (branchTokens line column ++ ·) := by
  rw [tokens_nextToken [⟨.number false, ⟨line, column + 1⟩⟩]
      ⟨⟨line, column + 2⟩, ": pass\n".toList ++ rest, [], [], false⟩ rfl (by cbv) (by cbv),
    tokens_nextToken [⟨.op ":", ⟨line, column + 2⟩⟩]
      ⟨⟨line, column + 3⟩, " pass\n".toList ++ rest, [], [], false⟩ rfl (by cbv) (by cbv),
    tokens_nextToken [⟨.keyword "pass", ⟨line, column + 4⟩⟩]
      ⟨⟨line, column + 8⟩, "\n".toList ++ rest, [], [], false⟩ rfl (by cbv) (by cbv),
    tokens_nextToken [⟨.newline, ⟨line, column + 8⟩⟩]
      ⟨⟨line + 1, 0⟩, rest, [], [], true⟩ rfl (by cbv) (by cbv)]
  cases tokens fuel _ <;> rfl

end Lexer

/-! The chains, as texts, as tokens and as trees. -/

def elifLines : Nat → List Char
  | 0 => []
  | count + 1 => "elif".toList ++ (" 0: pass\n".toList ++ elifLines count)

def chainText (count : Nat) : List Char := "if".toList ++ (" 0: pass\n".toList ++ elifLines count)

def elifTokens : Nat → Nat → List Token
  | line, 0 => [⟨.endOfInput, ⟨line, 0⟩⟩]
  | line, count + 1 =>
    ⟨.keyword "elif", ⟨line, 0⟩⟩ :: (Lexer.branchTokens line 4 ++ elifTokens (line + 1) count)

def chainTokens (count : Nat) : List Token :=
  ⟨.keyword "if", ⟨1, 0⟩⟩ :: (Lexer.branchTokens 1 2 ++ elifTokens 2 count)

/-- Further branches, each of them in the last block of the one before it. -/
def elifBlock : Nat → List Stmt
  | 0 => []
  | count + 1 => [.ifElse .constant [.simple []] (elifBlock count)]

def chainBlock (count : Nat) : List Stmt := elifBlock (count + 1)

theorem tokens_elifLines (line count : Nat) {fuel : Nat} (enough : 6 * count + 2 ≤ fuel) :
    Lexer.tokens fuel ⟨⟨line, 0⟩, elifLines count, [], [], true⟩ =
      some (elifTokens line count) := by
  induction count generalizing line fuel with
  | zero =>
    obtain ⟨fuel, rfl⟩ : ∃ more, fuel = more + 2 := ⟨fuel - 2, by omega⟩
    rfl
  | succ count ih =>
    obtain ⟨fuel, rfl⟩ : ∃ more, fuel = more + 6 := ⟨fuel - 6, by omega⟩
    have others := Lexer.tokens_branch fuel line 4 (elifLines count)
    rw [ih (line + 1) (by omega), Option.map_some] at others
    rw [Lexer.tokens_startLine [] ⟨⟨line, 0⟩, elifLines (count + 1), [], [], false⟩ rfl (by cbv),
      Lexer.tokens_nextToken [⟨.keyword "elif", ⟨line, 0⟩⟩]
        ⟨⟨line, 4⟩, " 0: pass\n".toList ++ elifLines count, [], [], false⟩ rfl (by cbv)
        (by cbv), others]
    rfl

theorem length_elifLines (count : Nat) : (elifLines count).length = 13 * count := by
  induction count with
  | zero => rfl
  | succ count ih =>
    rw [elifLines, List.length_append, List.length_append, ih]
    simp
    omega

theorem tokenize_chainText (count : Nat) :
    tokenize (chainText count) = some (chainTokens count) := by
  obtain ⟨fuel, enough, bound⟩ : ∃ fuel, 6 * count + 2 ≤ fuel ∧
      2 * (chainText count).length + 2 = fuel + 6 := by
    refine ⟨2 * (chainText count).length - 4, ?_, ?_⟩
    all_goals
      rw [chainText, List.length_append, List.length_append, length_elifLines]
      simp
      omega
  have others := Lexer.tokens_branch fuel 1 2 (elifLines count)
  rw [tokens_elifLines 2 count enough, Option.map_some] at others
  rw [tokenize, bound,
    Lexer.tokens_startLine [] ⟨⟨1, 0⟩, chainText count, [], [], false⟩ rfl (by cbv),
    Lexer.tokens_nextToken [⟨.keyword "if", ⟨1, 0⟩⟩]
      ⟨⟨1, 2⟩, " 0: pass\n".toList ++ elifLines count, [], [], false⟩ rfl (by cbv)
      (by cbv), others]
  rfl

namespace Parser

variable {α β : Type} {parser : Parser α} {continues : Parser Bool} {tokens rest : List Token}
  {a : α}

theorem bind_of_some {next : α → Parser β} (ran : parser tokens = some (a, rest)) :
    (parser >>= next) tokens = next a rest := by
  change (parser tokens).bind _ = _
  rw [ran]
  rfl

theorem manyFrom_stop (first : Token) {bound : List Token}
    (stops : continues tokens = some (false, tokens)) :
    manyFrom continues parser (first :: bound) tokens = some ([], tokens) := by
  rw [manyFrom, bind_of_some stops, if_neg Bool.false_ne_true]
  rfl

theorem manyFrom_step (first : Token) {bound last : List Token} {others : List α}
    (begins : continues tokens = some (true, tokens)) (ran : parser tokens = some (a, rest))
    (more : manyFrom continues parser bound rest = some (others, last)) :
    manyFrom continues parser (first :: bound) tokens = some (a :: others, last) := by
  rw [manyFrom, bind_of_some begins, if_pos rfl, bind_of_some ran, bind_of_some more]
  rfl

end Parser

open EnumLookup.Source.Parser

theorem guarded_elif [Characters] (line : Nat) (rest : List Token) :
    statementGrammar.guarded "elif"
        (⟨.keyword "elif", ⟨line, 0⟩⟩ :: (Lexer.branchTokens line 4 ++ rest)) =
      some ((.constant, [.simple []]), rest) := by
  rfl

theorem guarded_if [Characters] (rest : List Token) :
    statementGrammar.guarded "if" (⟨.keyword "if", ⟨1, 0⟩⟩ :: (Lexer.branchTokens 1 2 ++ rest)) =
      some ((.constant, [.simple []]), rest) := by
  rfl

theorem manyFrom_elifTokens [Characters] (line count : Nat) {bound : List Token}
    (enough : count < bound.length) :
    manyFrom (nextIsKeyword "elif") (statementGrammar.guarded "elif") bound
        (elifTokens line count) =
      some (List.replicate count (.constant, [.simple []]),
        [⟨.endOfInput, ⟨line + count, 0⟩⟩]) := by
  induction count generalizing line bound with
  | zero =>
    obtain ⟨first, bound, rfl⟩ := List.exists_cons_of_length_pos enough
    exact manyFrom_stop first rfl
  | succ count ih =>
    obtain ⟨first, bound, rfl⟩ := List.exists_cons_of_length_pos (Nat.zero_lt_of_lt enough)
    have others := ih (line + 1) (Nat.lt_of_succ_lt_succ enough)
    rw [Nat.add_assoc, Nat.add_comm 1] at others
    exact manyFrom_step first rfl (guarded_elif line _) others

theorem foldr_branches (count : Nat) :
    (List.replicate count (Expr.constant, [Stmt.simple []])).foldr
      (fun (test, body) orelse => [.ifElse test body orelse]) [] = elifBlock count := by
  induction count with
  | zero => rfl
  | succ count ih => rw [List.replicate_succ, List.foldr_cons, ih]; rfl

theorem length_elifTokens (line count : Nat) : (elifTokens line count).length = 5 * count + 1 := by
  induction count generalizing line with
  | zero => rfl
  | succ count ih =>
    rw [elifTokens, List.length_cons, List.length_append, ih]
    simp [Lexer.branchTokens]
    omega

theorem ifStatement_chainTokens [Characters] (count : Nat) :
    statementGrammar.ifStatement (chainTokens count) =
      some (.ifElse .constant [.simple []] (elifBlock count),
        [⟨.endOfInput, ⟨2 + count, 0⟩⟩]) := by
  have enough : count < (elifTokens 2 count).length := by
    rw [length_elifTokens]
    omega
  have branches : many (nextIsKeyword "elif") (statementGrammar.guarded "elif")
      (elifTokens 2 count) = _ :=
    manyFrom_elifTokens 2 count enough
  have last : statementGrammar.elseBlock [⟨.endOfInput, ⟨2 + count, 0⟩⟩] =
      some ([], [⟨.endOfInput, ⟨2 + count, 0⟩⟩]) := rfl
  rw [StmtGrammar.ifStatement, chainTokens, bind_of_some (guarded_if _)]
  dsimp only
  rw [bind_of_some branches, bind_of_some last, foldr_branches]
  rfl

theorem wholeModule_chainTokens [Characters] (count : Nat) :
    wholeModule (chainTokens count) = some (chainBlock count, []) := by
  have statement : statementGrammar.statement (chainTokens count) =
      some (chainBlock count, [⟨.endOfInput, ⟨2 + count, 0⟩⟩]) := by
    have word : peek (chainTokens count) = some (.keyword "if", chainTokens count) := rfl
    rw [StmtGrammar.statement, bind_of_some word]
    change (statementGrammar.ifStatement >>= fun statement => pure [statement]) _ = _
    rw [bind_of_some (ifStatement_chainTokens count)]
    rfl
  have statements : statementGrammar.statements (chainTokens count) =
      some (chainBlock count, [⟨.endOfInput, ⟨2 + count, 0⟩⟩]) := by
    have once : many (return !(← StmtGrammar.atBlockEnd)) statementGrammar.statement
        (chainTokens count) = some ([chainBlock count], [⟨.endOfInput, ⟨2 + count, 0⟩⟩]) :=
      manyFrom_step ⟨.keyword "if", ⟨1, 0⟩⟩ rfl statement
        (manyFrom_stop ⟨.number false, ⟨1, 3⟩⟩ rfl)
    rw [StmtGrammar.statements, bind_of_some once]
    exact congrArg (fun block => some (block, _)) (List.append_nil _)
  rw [wholeModule, bind_of_some statements]
  rfl

/-! What becomes of the chains. -/

theorem unifyLineEnds_of_free {text : List Char} (free : '\r' ∉ text) :
    unifyLineEnds text = text := by
  fun_induction unifyLineEnds text with
  | case1 rest => exact absurd (List.mem_cons_self ..) free
  | case2 c rest other ih =>
    obtain ⟨own, others⟩ := not_or.mp (mt List.mem_cons.mpr free)
    rw [if_neg (Ne.symm own), ih others]
  | case3 => rfl

theorem mem_elifLines {c : Char} {count : Nat} (member : c ∈ elifLines count) :
    c ∈ "elif 0: pass\n".toList := by
  induction count with
  | zero => cases member
  | succ count ih =>
    rw [elifLines, ← List.append_assoc] at member
    rcases List.mem_append.mp member with own | others
    · exact own
    · exact ih others

theorem mem_chainText {c : Char} {count : Nat} (member : c ∈ chainText count) :
    c ∈ "elif 0: pass\n".toList := by
  have begins : "if 0: pass\n".toList <:+ "elif 0: pass\n".toList := ⟨"el".toList, rfl⟩
  rw [chainText, ← List.append_assoc] at member
  rcases List.mem_append.mp member with own | others
  · exact begins.subset own
  · exact mem_elifLines others

theorem getLast?_elifLines (count : Nat) :
    (elifLines count).getLast?.or (some '\n') = some '\n' := by
  have line : " 0: pass\n".toList.getLast? = some '\n' := by decide
  induction count with
  | zero => rfl
  | succ count ih => rw [elifLines, List.getLast?_append, List.getLast?_append, line, ih]; rfl

theorem getLast?_chainText (count : Nat) : (chainText count).getLast? = some '\n' := by
  have line : " 0: pass\n".toList.getLast? = some '\n' := by decide
  rw [chainText, List.getLast?_append, List.getLast?_append, line, getLast?_elifLines]
  rfl

theorem blockDepth_elifBlock (count : Nat) : blockDepth (elifBlock (count + 1)) = count + 2 := by
  induction count with
  | zero => rfl
  | succ count ih =>
    rw [elifBlock, blockDepth, Stmt.depth, ih, blockDepth]
    simp [blockDepth, Stmt.depth, exprsDepth, Expr.depth]

theorem branchDepth_elifBlock (count : Nat) : branchDepth (elifBlock count) = count := by
  induction count with
  | zero => rfl
  | succ count ih => simp [elifBlock, branchDepth, statementBranchDepth, ih]

theorem parseWith_chainText [Characters] (count : Nat) :
    parseWith wholeModule (closeLastLine (unifyLineEnds (chainText count))) =
      some (chainBlock count) := by
  have ends : closeLastLine (chainText count) = chainText count := by
    simp [closeLastLine, getLast?_chainText]
  have noReturn : '\r' ∉ chainText count := fun member =>
    absurd (mem_chainText member) (by decide)
  have noZero : (chainText count).contains '\x00' = false := by
    rw [Bool.eq_false_iff, Ne, List.contains_iff_mem]
    exact fun member => absurd (mem_chainText member) (by decide)
  rw [unifyLineEnds_of_free noReturn, ends, parseWith, noZero, tokenize_chainText]
  simp [wholeModule_chainTokens]

def chainSource (count : Nat) : String := String.ofList (chainText count)

/-- The chain has a tree just when the tree is no deeper than trees may be. -/
theorem freshTree_chainSource [Characters] (count : Nat) : freshTree (chainSource count) =
    if count + 2 ≤ maxDepth then some (chainBlock count) else none := by
  rw [freshTree, chainSource, String.toList_ofList, parseModule, parseWith_chainText, limitDepth,
    chainBlock, blockDepth_elifBlock]
  split <;> rfl

end EnumLookup.Source

namespace EnumLookup

open Declaration Source

/-- A chain of branches is indexed just when it is short enough, though longer ones have trees. -/
theorem SourceFile.body?_chain [Text.Characters] {file : SourceFile} {count : Nat}
    (holds : file.text = .ofString (chainSource count)) :
    file.body?.isSome ↔ count < maxBranchDepth := by
  have limits : maxBranchDepth + 2 ≤ maxDepth := by decide
  rw [SourceFile.body?, holds, Text.SourceText.toString?_ofString, Option.bind_some,
    freshTree_chainSource]
  split
  · rw [Option.isSome_filter, Option.any_some, chainBlock, branchDepth_elifBlock,
      decide_eq_true_eq]
    exact Iff.rfl
  · simp only [Option.filter_none, Option.isSome_none, Bool.false_eq_true, false_iff]
    omega

end EnumLookup
