import EnumLookup.Proofs.Marking
import EnumLookup.Proofs.Program.Scopes

/-!
Which of the generated references exist. A descriptor refers to its class by a dotted path in the
module. The path denotes the class whose members are listed, unless a class statement around it was
replaced by one of the same name that has no such class: then the path denotes nothing, and the
descriptor is still made.
-/
namespace EnumLookup

open Declaration Generation Text

namespace Program

variable {limits : Limits} {cache : ParseCache} {files : List SourceFile} {loaded : Loaded}

/-- The reference of every descriptor denotes the class statement that it describes, unless an
enclosing class has lost it; then it denotes nothing. -/
theorem run_references [Characters] (trees : cache.HoldsTrees)
    (loads : load limits cache files = .ok loaded) (memo : Memo) {result : Result}
    (ran : (run loaded.program.host freshRenderer .never loaded.program.declarations memo).1 =
      .ok result) :
    ∀ d ∈ result.descriptors, ∃ home ∈ loaded.program.modules, ∃ last ∈ home.declarations,
      d.IsOf home last ∧
      (¬home.Loses (Dotted.components last.qualname) →
        home.denotes? (Dotted.components last.qualname) = some last.statement) ∧
      (home.Loses (Dotted.components last.qualname) →
        home.denotes? (Dotted.components last.qualname) = none) := by
  intro d member
  obtain ⟨home, inProgram, last, inHome, isOf, -⟩ := run_marked_origin loads ran member
  obtain ⟨kept, lost⟩ := (load_isIndexed trees loads home inProgram).denotes?_qualname inHome
  refine ⟨home, inProgram, last, inHome, isOf, fun keeps => ?_, lost⟩
  rw [kept keeps, LoadedModule.statement?, isOf.counts]
  rfl

def redefinedText : String :=
  "class O: 0\nclass O:\n @enum_extensions\n class C(Enum): A = 1\n"

theorem run_references_redefined :
    ∃ loaded result, load .standard .empty (enumFiles redefinedText) = .ok loaded ∧
      ParseCache.empty.HoldsTrees ∧
      (run loaded.program.host freshRenderer .never loaded.program.declarations loaded.memo).1 =
        .ok result ∧
      ∃ d ∈ result.descriptors, ∃ home last, d.IsOf home last ∧
        home.denotes? (Dotted.components last.qualname) = some last.statement := by
  have checked : (load .standard .empty (enumFiles redefinedText)).toOption.any (fun loaded =>
      (loaded.program.class? "m" "O.C").any fun found =>
        describable loaded.program found ∧
          ∀ home ∈ loaded.program.modules, ∀ declaration ∈ home.declarations,
            (home.denotes? (Dotted.components declaration.qualname)).isSome) = true := by
    decide +kernel
  obtain ⟨loaded, loads, holds⟩ := exists_ok_of_any checked
  obtain ⟨found, isClass, sound⟩ := (Option.any_eq_true _ _).mp holds
  obtain ⟨sound, denotes⟩ := of_decide_eq_true sound
  obtain ⟨result, ran, d, member, -⟩ := enumFiles_described loads isClass sound
  obtain ⟨home, inProgram, last, inHome, isOf, kept, lost⟩ :=
    run_references ParseCache.empty_holdsTrees loads loaded.memo ran d member
  refine ⟨loaded, result, loads, ParseCache.empty_holdsTrees, ran, d, member, home, last, isOf,
    kept fun loses => ?_⟩
  have some := denotes home inProgram last inHome
  rw [lost loses] at some
  cases some

/-- The class around the marked enum is replaced by one without it. -/
def replacedText : String :=
  "class O:\n @enum_extensions\n class C(Enum): A = 1\nclass O: 0\n"

theorem not_denoted_replaced :
    ∃ loaded result, load .standard .empty (enumFiles replacedText) = .ok loaded ∧
      (run loaded.program.host freshRenderer .never loaded.program.declarations loaded.memo).1 =
        .ok result ∧
      ∃ d ∈ result.descriptors, ∃ home last, d.IsOf home last ∧ d.qualifiedName = "m.O.C" ∧
        home.denotes? ["O"] ≠ none ∧ home.denotes? ["O", "C"] = none := by
  have checked : (load .standard .empty (enumFiles replacedText)).toOption.any (fun loaded =>
      (loaded.program.class? "m" "O.C").any fun found =>
        describable loaded.program found ∧ found.fullName = "m.O.C" ∧
          (found.module.denotes? ["O"]).isSome ∧
          (found.module.denotes? ["O", "C"]).isNone) = true := by
    decide +kernel
  obtain ⟨loaded, loads, holds⟩ := exists_ok_of_any checked
  obtain ⟨found, isClass, sound⟩ := (Option.any_eq_true _ _).mp holds
  obtain ⟨sound, name, outer, inner⟩ := of_decide_eq_true sound
  obtain ⟨result, ran, d, member, isOf⟩ := enumFiles_described loads isClass sound
  refine ⟨loaded, result, loads, ran, d, member, found.module, found.declaration, isOf,
    isOf.name.trans name, ?_, Option.isNone_iff_eq_none.mp inner⟩
  exact Option.isSome_iff_ne_none.mp outer

end Program

end EnumLookup
