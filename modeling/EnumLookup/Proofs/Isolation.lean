import EnumLookup.Proofs.Runs

/-!
Files without a tree. Such a file adds no module, and takes no name from a file that comes later,
so a run is the same with and without it. No module and no class that is looked up on the way is
missing.
-/
namespace EnumLookup

open Declaration Program Source

variable {files others : List SourceFile} {file : SourceFile} {loaded other : Loaded}

def SourceFile.parses [Text.Characters] (file : SourceFile) : Bool :=
  (file.text.toString?.bind freshTree).isSome

theorem SourceFile.body?_of_broken [Text.Characters] (broken : file.parses = false) :
    file.body? = none := by
  have noTree : file.text.toString?.bind freshTree = none :=
    Option.not_isSome_iff_eq_none.mp (by rw [← SourceFile.parses, broken]; simp)
  rw [SourceFile.body?, noTree, Option.filter_none]

theorem LoadedModule.class?_isSome {home : LoadedModule} {declaration : ClassDeclaration}
    (declared : declaration ∈ home.declarations) : (home.class? declaration.qualname).isSome := by
  rw [LoadedModule.class?, List.findRev?_eq_find?_reverse, List.find?_isSome]
  exact ⟨declaration, List.mem_reverse.mpr declared, beq_self_eq_true _⟩

namespace Program

/-- What is looked up to answer questions about a program is there: the class of a declaration, a
class that a base leads to, and a module that a name lies in. -/
structure Closed (program : Program) : Prop where
  declared : ∀ declaration ∈ program.declarations,
    (program.class? declaration.module declaration.qualname).isSome
  inherited : ∀ loaded base parent,
    program.judgeBase loaded base = .ok (.inherits parent) → program.IsClass parent
  entered : ∀ name home inner,
    program.splitModule? name = some (home, inner) → program.module? home.name = some home

theorem load_closed [Text.Characters] {limits : Limits} {cache : ParseCache}
    (loads : load limits cache files = .ok loaded) : loaded.program.Closed where
  declared declaration member := by
    obtain ⟨home, inProgram, inHome⟩ := List.mem_flatMap.mp member
    obtain ⟨named, found⟩ := Option.isSome_iff_exists.mp (LoadedModule.class?_isSome inHome)
    refine Option.isSome_iff_exists.mpr ⟨⟨home, named⟩, class?_eq_some.mpr ⟨?_, found⟩⟩
    rw [load_own loads inProgram inHome]
    exact load_found loads inProgram
  inherited _ _ _ := judgeBase_isClass
  entered _ _ _ split := (splitModule?_eq_some.mp split).loaded

theorem withFile_of_broken [Text.Characters] (broken : file.parses = false)
    (modules : List LoadedModule) :
    withFile modules file = modules := by
  simp [withFile, SourceFile.body?_of_broken broken]

/-- The modules of files are those of the files that have a tree. -/
theorem modulesOf_parses [Text.Characters] (files : List SourceFile) :
    modulesOf (files.filter SourceFile.parses) = modulesOf files := by
  rw [modulesOf, modulesOf, List.foldl_filter]
  congr 1
  funext modules file
  split
  · rfl
  · next broken => rw [withFile_of_broken (by simpa using broken)]

end Program

/-- A run goes by the program and by what is remembered about it. -/
theorem runAfresh_congr [Text.Characters] (loads : load .standard .empty files = .ok loaded)
    (othersLoad : load .standard .empty others = .ok other)
    (program : other.program = loaded.program) (memo : other.memo = loaded.memo)
    (cancellation : Cancellation) :
    runAfresh cancellation others = runAfresh cancellation files := by
  simp only [runAfresh, loads, othersLoad, program, memo]

/-- Files that have no tree are isolated. A run over any files has a result, with every module and
every class that it looks up in its place, whatever cycles of imports and of bases there are; and
it has this result also without those files, and with others of their kind at any places. A
name that is given up counts as one without an answer: this is about runs in which every search for
a name ends. -/
theorem runAfresh_isolated [Text.Characters] (files : List SourceFile)
    (encodable : AllEncodable files)
    (separated : Separated (textsOf files)) (named : ∀ file ∈ files, file.module ≠ "")
    (cancellation : Cancellation) :
    ∃ loaded result, load .standard .empty files = .ok loaded ∧ loaded.program.Closed ∧
      runAfresh cancellation files = .ok result ∧
      ∀ others, AllEncodable others → Separated (textsOf others) →
        others.filter SourceFile.parses = files.filter SourceFile.parses →
        ∃ other, load .standard .empty others = .ok other ∧ other.program = loaded.program ∧
          runAfresh cancellation others = .ok result := by
  obtain ⟨loaded, loads, program, memo, -⟩ := load_ok .standard
    (ParseCache.empty_faithful _) separated encodable fun _ member => member
  obtain ⟨result, ran⟩ := runAfresh_succeeds encodable separated named cancellation
  refine ⟨loaded, result, loads, load_closed loads, ran, ?_⟩
  intro others othersEncodable othersSeparated same
  obtain ⟨other, othersLoad, otherProgram, otherMemo, -⟩ := load_ok .standard
    (ParseCache.empty_faithful _) othersSeparated othersEncodable fun _ member => member
  have settled : settledOf .standard others = settledOf .standard files := by
    rw [settledOf, settledOf, ← modulesOf_parses others, same, modulesOf_parses]
  have sameProgram : other.program = loaded.program := by rw [otherProgram, settled, program]
  have sameMemo : other.memo = loaded.memo := by rw [otherMemo, settled, memo]
  refine ⟨other, othersLoad, sameProgram, ?_⟩
  rw [runAfresh_congr loads othersLoad sameProgram sameMemo, ran]

/-- A file that does not parse comes first, with the path and the module of one that does; its
classes inherit from each other and over an import that leads back. -/
def mendedFiles : List SourceFile :=
  [⟨"p.py", "p", false, .ofString "class (\n"⟩,
    ⟨"p.py", "p", false, .ofString ("from enum import Enum\nfrom q import D\n" ++
      "from enum_generators import enum_extensions\n@enum_extensions\nclass C(Enum): A = 1\n" ++
      "class X(Y, D): pass\nclass Y(X): pass\n")⟩,
    ⟨"q.py", "q", false, .ofString "from p import D\n"⟩]

theorem runAfresh_mended :
    AllEncodable mendedFiles ∧ Separated (textsOf mendedFiles) ∧
      (∀ file ∈ mendedFiles, file.module ≠ "") ∧
      ∃ loaded result, load .standard .empty mendedFiles = .ok loaded ∧
        runAfresh .never mendedFiles = .ok result ∧
        ∃ other, load .standard .empty mendedFiles.tail = .ok other ∧
          other.program = loaded.program ∧ runAfresh .never mendedFiles.tail = .ok result := by
  have encodable : AllEncodable mendedFiles := by decide +kernel
  have separated : Separated (textsOf mendedFiles) := by decide +kernel
  have named : ∀ file ∈ mendedFiles, file.module ≠ "" := by decide
  obtain ⟨loaded, result, loads, -, ran, isolated⟩ :=
    runAfresh_isolated mendedFiles encodable separated named .never
  have fewer : ∀ text ∈ textsOf mendedFiles.tail, text ∈ textsOf mendedFiles :=
    fun text member => ((List.tail_sublist _).filterMap _).subset member
  refine ⟨encodable, separated, named, loaded, result, loads, ran, isolated _ ?_ ?_ ?_⟩
  · exact fun file member => encodable file (List.mem_of_mem_tail member)
  · exact fun a inA b inB => separated a (fewer a inA) b (fewer b inB)
  · decide +kernel

end EnumLookup
