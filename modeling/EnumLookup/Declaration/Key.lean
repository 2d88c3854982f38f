/-!
The identity of a declaration: where it stands and what it is called. Keys are ordered
by path, line, column and name, the order in which declarations are processed.
-/
namespace EnumLookup

structure Key where
  path : String
  line : Nat
  column : Nat
  name : String
  deriving DecidableEq, Repr, Inhabited

namespace Key

def le (a b : Key) : Bool :=
  if a.path = b.path then
    if a.line = b.line then
      if a.column = b.column then a.name ≤ b.name else a.column ≤ b.column
    else a.line ≤ b.line
  else a.path ≤ b.path

theorem le_total (a b : Key) : (a.le b || b.le a) = true := by
  simp only [le, Bool.or_eq_true]
  rcases a with ⟨p, l, c, n⟩
  rcases b with ⟨p', l', c', n'⟩
  by_cases hp : p = p'
  · by_cases hl : l = l'
    · by_cases hc : c = c'
      · simpa [hp, hl, hc] using String.le_total n n'
      · simp only [hp, hl, hc, Ne.symm hc, if_true, if_false, decide_eq_true_eq]; omega
    · simp only [hp, hl, Ne.symm hl, if_true, if_false, decide_eq_true_eq]; omega
  · simpa [hp, Ne.symm hp] using String.le_total p p'

theorem le_antisymm {a b : Key} (hab : a.le b = true) (hba : b.le a = true) : a = b := by
  rcases a with ⟨p, l, c, n⟩
  rcases b with ⟨p', l', c', n'⟩
  simp only [le] at hab hba
  by_cases hp : p = p'
  · by_cases hl : l = l'
    · by_cases hc : c = c'
      · simp only [hp, hl, hc, if_true, decide_eq_true_eq] at hab hba
        simp [hp, hl, hc, String.le_antisymm hab hba]
      · simp only [hp, hl, hc, Ne.symm hc, if_true, if_false, decide_eq_true_eq] at hab hba
        omega
    · simp only [hp, hl, Ne.symm hl, if_true, if_false, decide_eq_true_eq] at hab hba
      omega
  · simp only [hp, Ne.symm hp, if_false, decide_eq_true_eq] at hab hba
    exact absurd (String.le_antisymm hab hba) hp

theorem le_trans {a b c : Key} (hab : a.le b = true) (hbc : b.le c = true) :
    a.le c = true := by
  rcases a with ⟨p, l, k, n⟩
  rcases b with ⟨p', l', k', n'⟩
  rcases c with ⟨p'', l'', k'', n''⟩
  simp only [le] at hab hbc ⊢
  split at hab <;> split at hbc <;> rename_i hp hq
  · subst hp hq
    simp only [if_true]
    split at hab <;> split at hbc <;> rename_i hl hm
    · subst hl hm
      simp only [if_true]
      split at hab <;> split at hbc <;> rename_i hk hj
      · subst hk hj
        simp only [if_true, decide_eq_true_eq] at hab hbc ⊢
        exact String.le_trans hab hbc
      all_goals
        simp only [decide_eq_true_eq] at hab hbc
        have : k ≠ k'' := by omega
        simp only [this, if_false, decide_eq_true_eq]
        omega
    all_goals
      try split at hab
      all_goals try split at hbc
      all_goals
        simp only [decide_eq_true_eq] at hab hbc
        have : l ≠ l'' := by omega
        simp only [this, if_false, decide_eq_true_eq]
        omega
  · subst hp
    simp only [hq, if_false]
    exact hbc
  · subst hq
    simp only [hp, if_false]
    exact hab
  · simp only [decide_eq_true_eq] at hab hbc
    by_cases hr : p = p''
    · subst hr
      exact absurd (String.le_antisymm hab hbc) hp
    · simp only [hr, if_false, decide_eq_true_eq]
      exact String.le_trans hab hbc

end Key

end EnumLookup
