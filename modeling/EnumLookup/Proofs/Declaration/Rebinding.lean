import EnumLookup.Proofs.Declaration.Targets

/-!
Which statement decides what a name of a module refers to. It is the last one that binds the name,
or that only annotates it: an annotation without a value is taken for a definition of the name,
although it binds nothing.
-/
namespace EnumLookup

open Declaration Source Text

namespace Source

def ImportedName.moduleName (imported : ImportedName) : String :=
  imported.asName.getD (Dotted.cut imported.name).1

def ImportedName.memberName (imported : ImportedName) : String :=
  imported.asName.getD imported.name

/-- The names that a statement binds itself, and not by statements in it. -/
def Stmt.boundNames : Stmt → List String
  | .classDef header _ => [header.name]
  | .functionDef name _ _ => [name]
  | .assign targets _ => (Expr.boundNamesOfTargets targets).map (·.name)
  | .annotated (.name id) _ (some _) => [id]
  | .importModules names => names.map (·.moduleName)
  | .importFrom _ _ names => (names.filter (·.name ≠ "*")).map (·.memberName)
  | _ => []

/-- The statement annotates the name and gives it no value. -/
def Stmt.OnlyAnnotates (name : String) (stmt : Stmt) : Prop :=
  ∃ type, stmt = .annotated (.name name) type none

end Source

namespace Declaration

/-- A statement in one of the blocks, at any depth of branches, binds the name. -/
def Binds (name : String) (blocks : List (List Stmt)) : Prop :=
  ∃ block ∈ blocks, ∃ stmt later, Occurs stmt block later ∧ name ∈ stmt.boundNames

/-- A statement in one of the blocks, at any depth of branches, annotates the name without binding
it. -/
def OnlyAnnotates (name : String) (blocks : List (List Stmt)) : Prop :=
  ∃ block ∈ blocks, ∃ stmt later, Occurs stmt block later ∧ stmt.OnlyAnnotates name

variable {context : ModuleContext} {stmt : Stmt} {name target : String}
  {front back : List (String × String)} {body : List Stmt} {later : List (List Stmt)}

theorem exists_occurs_iff {holds : Stmt → Prop} {blocks : List (List Stmt)} :
    (∃ block ∈ blocks, ∃ stmt later, Occurs stmt block later ∧ holds stmt) ↔
      ∃ stmt ∈ blocks.flatMap flatten, holds stmt := by
  constructor
  · rintro ⟨block, isBlock, stmt, later, occurs, has⟩
    exact ⟨stmt, List.mem_flatMap.mpr ⟨block, isBlock, mem_flatten.mpr ⟨later, occurs⟩⟩, has⟩
  · rintro ⟨stmt, member, has⟩
    obtain ⟨block, isBlock, inBlock⟩ := List.mem_flatMap.mp member
    obtain ⟨later, occurs⟩ := mem_flatten.mp inBlock
    exact ⟨block, isBlock, stmt, later, occurs, has⟩

theorem lookup_reverse_append {key value : String} (agree : ∀ entry ∈ back, entry.1 = key →
    entry.2 = value) (member : key ∈ back.map (·.1)) :
    (front ++ back).reverse.lookup key = some value := by
  rw [List.reverse_append, List.lookup_append]
  cases found : back.reverse.lookup key with
  | none =>
    obtain ⟨entry, inBack, rfl⟩ := List.mem_map.mp member
    have absent := List.lookup_eq_none_iff.mp found entry (List.mem_reverse.mpr inBack)
    simp at absent
  | some other =>
    obtain ⟨before, after, place, -⟩ := List.lookup_eq_some_iff.mp found
    have inBack : (key, other) ∈ back := List.mem_reverse.mp (by simp [place])
    exact congrArg some (agree (key, other) inBack rfl)

theorem moduleBinding_name (imported : ImportedName) :
    (moduleBinding imported).1 = imported.moduleName := by
  unfold moduleBinding ImportedName.moduleName
  cases imported.asName <;> rfl

theorem mem_memberBindings {base : String} {names : List ImportedName} {entry : String × String}
    (recorded : entry ∈ memberBindings base names) :
    entry.1 ∈ (names.filter (·.name ≠ "*")).map (·.memberName) := by
  obtain ⟨imported, kept, rfl⟩ := List.mem_map.mp recorded
  exact List.mem_map_of_mem kept

/-- What is recorded of a statement are names that it binds, and its own name for a name that it
only annotates. -/
theorem mem_statementBindings {entry : String × String}
    (recorded : entry ∈ statementBindings context stmt) :
    entry.1 ∈ stmt.boundNames ∨
      stmt.OnlyAnnotates entry.1 ∧ entry = ownBinding context entry.1 := by
  cases stmt with
  | importModules names =>
    obtain ⟨imported, member, rfl⟩ := List.mem_map.mp recorded
    exact .inl (List.mem_map.mpr ⟨imported, member, (moduleBinding_name imported).symm⟩)
  | importFrom level module names =>
    simp only [statementBindings] at recorded
    split at recorded
    · exact .inl (mem_memberBindings recorded)
    · cases recorded
  | classDef header body =>
    obtain rfl := List.mem_singleton.mp recorded
    exact .inl (List.mem_singleton_self _)
  | functionDef name parts body =>
    obtain rfl := List.mem_singleton.mp recorded
    exact .inl (List.mem_singleton_self _)
  | assign targets value =>
    rw [statementBindings, Expr.targetNames_eq] at recorded
    obtain ⟨id, unstarred, rfl⟩ := List.mem_map.mp recorded
    obtain ⟨bound, kept, rfl⟩ := List.mem_map.mp unstarred
    exact .inl (List.mem_map_of_mem (List.mem_filter.mp kept).1)
  | annotated target type value =>
    cases target with
    | name id =>
      obtain rfl := List.mem_singleton.mp recorded
      cases value with
      | none => exact .inr ⟨⟨type, rfl⟩, rfl⟩
      | some value => exact .inl (List.mem_singleton_self _)
    | _ => cases recorded
  | _ => cases recorded

/-- What is recorded of some blocks that do not bind a name are definitions of it for the statements
that only annotate it. -/
theorem own_of_recorded (unbound : ¬Binds name later) {entry : String × String}
    (recorded : entry ∈ (later.flatMap flatten).flatMap (statementBindings context))
    (sameName : entry.1 = name) : OnlyAnnotates name later ∧ entry = ownBinding context name := by
  obtain ⟨stmt, inLater, recorded⟩ := List.mem_flatMap.mp recorded
  subst sameName
  rcases mem_statementBindings recorded with binds | ⟨annotates, own⟩
  · exact absurd (exists_occurs_iff.mpr ⟨stmt, inLater, binds⟩) unbound
  · exact ⟨exists_occurs_iff.mpr ⟨stmt, inLater, annotates⟩, own⟩

theorem OnlyAnnotates.recorded (annotates : OnlyAnnotates name later) :
    ownBinding context name ∈ (later.flatMap flatten).flatMap (statementBindings context) := by
  obtain ⟨_, inLater, type, rfl⟩ := exists_occurs_iff.mp annotates
  exact List.mem_flatMap.mpr ⟨_, inLater, List.mem_singleton_self _⟩

/-- Behind a statement that binds a name, and that nothing rebinds, the name refers to what it was
bound to, unless a later statement annotates it: then it is taken for a definition of the module. -/
theorem Occurs.lookup_eq (occurs : Occurs stmt body later) (unbranched : branches stmt = [])
    (recorded : statementBindings context stmt = front ++ (name, target) :: back)
    (last : name ∉ back.map (·.1)) (unbound : ¬Binds name later) :
    (¬OnlyAnnotates name later → (moduleBindings context body).lookup name = some target) ∧
    (OnlyAnnotates name later →
      (moduleBindings context body).lookup name = some (context.module ++ "." ++ name)) := by
  obtain ⟨before, around⟩ := occurs.flatten_eq
  -- The latest binding comes first, so what the lookup finds is the last entry recorded of the name.
  have split : moduleBindings context body = (before.flatMap (statementBindings context) ++ front ++
      ((name, target) :: back ++
        (later.flatMap flatten).flatMap (statementBindings context))).reverse := by
    rw [moduleBindings, around, unbranched]
    simp [recorded]
  constructor
  · intro unannotated
    rw [split]
    refine lookup_reverse_append ?_ (by simp)
    intro entry member sameName
    rcases List.mem_append.mp member with inStmt | behind
    · rcases List.mem_cons.mp inStmt with rfl | inBack
      · rfl
      · exact absurd (List.mem_map.mpr ⟨entry, inBack, sameName⟩) last
    · exact absurd (own_of_recorded unbound behind sameName).1 unannotated
  · intro annotated
    rw [split, ← List.append_assoc]
    refine lookup_reverse_append ?_ ?_
    · intro entry behind sameName
      rw [(own_of_recorded unbound behind sameName).2]
      rfl
    · exact List.mem_map_of_mem annotated.recorded

end Declaration

end EnumLookup
