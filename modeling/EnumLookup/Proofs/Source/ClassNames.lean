import EnumLookup.Proofs.Source.Statements
import EnumLookup.Proofs.Text.Composed
import EnumLookup.Proofs.Text.Dotted
import EnumLookup.Proofs.Text.Lines
import EnumLookup.Source.Module
import Mathlib

set_option mvcgen.warning false

/-!
The names that a source gives its classes. Name tokens hold identifiers in their composed form,
which are not empty and have no dot, and the classes of a tree are named by such tokens.
-/
namespace EnumLookup.Source

open Declaration EnumLookup.Source.Parser Text Std.Do

def Token.NamesWord (token : Token) : Prop :=
  ∀ spelling id, token.kind = .name spelling id → Dotted.IsWord id

namespace Lexer

theorem word?_name {chars : List Char} {spelling id : String}
    (word : word? chars = some (.name spelling id)) : Dotted.IsWord id := by
  simp only [word?] at word
  split at word
  · cases word
  · split at word
    · next identifier =>
      cases word
      have continues : Identifier.isIdentifier (String.ofList chars) = true := by
        rwa [Identifier.isIdentifier, String.toList_ofList]
      have some : chars ≠ [] := by
        rintro rfl
        cases identifier
      have undotted : '.' ∉ chars := by
        intro member
        have continued := isContinue_of_mem continues (c := '.') (by rwa [String.toList_ofList])
        rw [Identifier.not_isContinue_dot] at continued
        cases continued
      obtain ⟨nonempty, free⟩ := Composed.normalize_undotted some undotted
      exact ⟨by simpa using nonempty, by simpa using free⟩
    · cases word

theorem tokenAt_name {input : List Char} {spelling id : String} {length : Nat}
    (taken : tokenAt input = some (.name spelling id, length)) : Dotted.IsWord id := by
  unfold tokenAt at taken
  split at taken
  · obtain ⟨_, -, same⟩ := Option.map_eq_some_iff.mp taken
    cases same
  · split at taken
    · cases taken
    · split at taken
      · obtain ⟨kind, word, same⟩ := Option.map_eq_some_iff.mp taken
        cases same
        exact word?_name word
      · split at taken
        · obtain ⟨_, -, same⟩ := Option.map_eq_some_iff.mp taken
          cases same
        · obtain ⟨_, -, same⟩ := Option.map_eq_some_iff.mp taken
          cases same

theorem changeIndent_names {indents kept : List Indentation} {line : Indentation}
    {kinds : List TokenKind} (changed : changeIndent indents line = some (kinds, kept)) :
    ∀ kind ∈ kinds, kind = .indent ∨ kind = .dedent := by
  simp only [changeIndent] at changed
  split at changed
  · split at changed <;> cases changed
    simp
  · split at changed
    · split at changed <;> cases changed
      simp
    · split at changed <;> cases changed
      intro kind member
      exact .inr (List.eq_of_mem_replicate member)

theorem startLine_names {lexer next : Lexer} {first : List Token}
    (started : lexer.startLine = some (first, next)) : ∀ token ∈ first, token.NamesWord := by
  unfold startLine at started
  obtain ⟨opening, -, started⟩ := Option.bind_eq_some_iff.mp started
  dsimp only at started
  split at started
  · cases started
    simp
  · split at started
    · cases started
      simp
    · obtain ⟨⟨kinds, indents⟩, changed, same⟩ := Option.bind_eq_some_iff.mp started
      cases same
      intro token member spelling id name
      obtain ⟨kind, inKinds, rfl⟩ := List.mem_map.mp member
      rcases changeIndent_names changed kind inKinds with rfl | rfl <;> cases name

theorem nextToken_names {lexer next : Lexer} {first : List Token}
    (taken : lexer.nextToken = some (first, next)) : ∀ token ∈ first, token.NamesWord := by
  unfold nextToken at taken
  split at taken
  · dsimp only at taken
    split at taken <;> cases taken <;> simp [Token.NamesWord]
  · split at taken <;> cases taken
    simp
  · obtain ⟨⟨kind, length⟩, taken, made⟩ := Option.bind_eq_some_iff.mp taken
    have single : first = [⟨kind, lexer.position⟩] := by
      dsimp only at made
      split at made
      · obtain ⟨brackets, -, same⟩ := Option.bind_eq_some_iff.mp made
        cases same
        rfl
      · cases made
        rfl
    rw [single, List.forall_mem_singleton]
    rintro spelling id rfl
    exact tokenAt_name taken

theorem tokens_names {fuel : Nat} {lexer : Lexer} {found : List Token}
    (lexed : tokens fuel lexer = some found) : ∀ token ∈ found, token.NamesWord := by
  induction fuel generalizing lexer found with
  | zero => cases lexed
  | succ fuel ih =>
    unfold tokens at lexed
    split at lexed
    · obtain ⟨⟨first, next⟩, started, lexed⟩ := Option.bind_eq_some_iff.mp lexed
      obtain ⟨rest, others, same⟩ := Option.bind_eq_some_iff.mp lexed
      cases same
      exact List.forall_mem_append.mpr ⟨startLine_names started, ih others⟩
    · dsimp only at lexed
      split at lexed
      · split at lexed <;> cases lexed
        simp [Token.NamesWord]
      · obtain ⟨⟨first, next⟩, taken, lexed⟩ := Option.bind_eq_some_iff.mp lexed
        obtain ⟨rest, others, same⟩ := Option.bind_eq_some_iff.mp lexed
        cases same
        exact List.forall_mem_append.mpr ⟨nextToken_names taken, ih others⟩

end Lexer

variable [Characters]

instance : expressionGrammar.Advancing :=
  inferInstanceAs (ExprGrammar.ofDepth _ _).Advancing

instance : statementGrammar.Orderly :=
  StmtGrammar.ofDepth_orderly expressionGrammar (fun _ => Pattern.ofDepth_advances _ _) _

theorem wholeModule_reads {start : List Token} : Reading start headers wholeModule := by
  mvcgen [wholeModule] with grind

/-- The classes of a module stand among the tokens of its text, in their order. -/
theorem parseModule_spell {text : List Char} {body : List Stmt}
    (parsed : parseModule text = .ok body) :
    ∃ tokens, tokenize (closeLastLine (unifyLineEnds text)) = some tokens ∧
      Spell tokens (headers body) := by
  unfold parseModule limitDepth at parsed
  split at parsed
  · cases parsed
  · next tree found =>
    split at parsed <;> cases parsed
    unfold parseWith at found
    split at found
    · cases found
    · obtain ⟨tokens, lexed, found⟩ := Option.bind_eq_some_iff.mp found
      obtain ⟨⟨body, left⟩, outcome, same⟩ := Option.bind_eq_some_iff.mp found
      cases same
      obtain ⟨read, rfl, spell⟩ :=
        triple_iff.mp wholeModule_reads tokens body left (List.suffix_refl tokens) outcome
      refine ⟨_, lexed, spell.ordered.trans ?_, fun header member => ?_⟩
      · rw [classPositions_append]
        exact List.sublist_append_left ..
      · obtain ⟨token, among, named⟩ := spell.named header member
        exact ⟨token, List.mem_append_left _ among, named⟩

/-- The classes of a module have names of one component. -/
theorem parseModule_names {text : List Char} {body : List Stmt}
    (parsed : parseModule text = .ok body) : ∀ header ∈ headers body, Dotted.IsWord header.name := by
  intro header member
  obtain ⟨tokens, lexed, spell⟩ := parseModule_spell parsed
  obtain ⟨token, among, spelling, named⟩ := spell.named header member
  exact Lexer.tokens_names lexed token among spelling header.name named

end EnumLookup.Source
