import EnumLookup.Proofs.Completeness
import EnumLookup.Proofs.Discovery.Found
import EnumLookup.Proofs.Generation.Heeding
import EnumLookup.Proofs.Generation.Interruption
import EnumLookup.Proofs.Sessions

/-!
Runs over the files that a search finds. Each of these files has a module name, so every enum of the
program has a descriptor, and a run over it has a result, wherever it is cancelled.
-/
namespace EnumLookup

open Text

variable {store : Store} {roots : List Path} {exclude : List String} {files : List SourceFile}
  {cancellation : Cancellation}

namespace Generation

variable {ν σ : Type} {host : Host ν σ}

/-- Wherever it is cancelled, a run has a result when every type has a descriptor. -/
theorem run_succeeds (describable : host.Describable) (render : Renderer σ)
    (cancellation : Cancellation) (nodes : List ν) (state : σ) :
    ∃ result, (run host render cancellation nodes state).1 = .ok result := by
  obtain ⟨-, descriptors, q, -, paced, -⟩ := describe_paced describable nodes (.start state)
  rcases describe_heeds host nodes cancellation (.start state) with same | cancelled
  · obtain ⟨result, r, ran, -⟩ := run_of_described render (same.trans paced.uncancelled)
    exact ⟨result, by rw [ran]⟩
  · rw [run_of_cancelled (Prod.ext cancelled rfl)]
    exact ⟨_, rfl⟩

end Generation

namespace Program

theorem host_describable {program : Program} (named : ∀ home ∈ program.modules, home.name ≠ "") :
    program.host.Describable := by
  intro declaration memo type declared
  change (program.declaredType declaration.module declaration.qualname memo).1 = _ at declared
  cases found : program.class? declaration.module declaration.qualname with
  | none =>
    rw [declaredType_none found] at declared
    cases declared
  | some loaded =>
    rw [declaredType_some found] at declared
    obtain ⟨-, rfl⟩ := typeAnswer_eq_some declared
    exact enumType_descriptor (named _ (module?_mem (class?_eq_some.mp found).1).1)

end Program

/-- A run from scratch has a result, wherever it is cancelled. -/
theorem runAfresh_succeeds [Characters] (encodable : AllEncodable files)
    (separated : Separated (textsOf files))
    (named : ∀ file ∈ files, file.module ≠ "") (cancellation : Cancellation) :
    ∃ result, runAfresh cancellation files = .ok result := by
  obtain ⟨loaded, loads, -⟩ := Program.load_ok .standard
    (ParseCache.empty_faithful (textsOf files)) separated encodable fun _ member => member
  have describable := Program.host_describable (Program.load_named loads named)
  obtain ⟨result, ran⟩ := Generation.run_succeeds describable Generation.freshRenderer cancellation
    loaded.program.declarations loaded.memo
  refine ⟨result, ?_⟩
  simp only [runAfresh, loads, ran]
  rfl

end EnumLookup
