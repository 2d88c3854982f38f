import EnumLookup.Text.Dotted
import EnumLookup.Text.Identifier
import EnumLookup.Text.Layout

/-!
Texts that are made of lines. Lines without line breaks can be told from the text they are joined
to, and a number from its digits. Dotted identifiers hold no line breaks.
-/
namespace EnumLookup.Text

def OneLine (text : String) : Prop := '\n' ∉ text.toList

instance (text : String) : Decidable (OneLine text) := inferInstanceAs (Decidable (_ ∉ _))

theorem oneLine_append {a b : String} : OneLine (a ++ b) ↔ OneLine a ∧ OneLine b := by
  simp [OneLine]

theorem toList_joinLines (lines : List String) :
    (joinLines lines).toList = ['\n'].intercalate (lines.map String.toList) := by
  rw [joinLines, String.toList_intercalate]
  rfl

theorem splitOn_joinLines {lines : List String} (some : lines ≠ [])
    (oneLine : ∀ line ∈ lines, OneLine line) :
    List.splitOn '\n' (joinLines lines).toList = lines.map String.toList := by
  rw [toList_joinLines]
  apply List.splitOn_intercalate
  · intro chars member
    obtain ⟨line, inside, rfl⟩ := List.mem_map.mp member
    exact oneLine line inside
  · simpa using some

theorem joinLines_injective {lines others : List String} (some : lines ≠ [])
    (alsoSome : others ≠ []) (oneLine : ∀ line ∈ lines, OneLine line)
    (alsoOneLine : ∀ line ∈ others, OneLine line) (same : joinLines lines = joinLines others) :
    lines = others := by
  have chars := (splitOn_joinLines some oneLine).symm.trans
    ((congrArg (fun text => List.splitOn '\n' text.toList) same).trans
      (splitOn_joinLines alsoSome alsoOneLine))
  exact (List.map_inj_right fun _ _ => String.toList_inj.mp).mp chars

theorem decimal_injective : Function.Injective decimal := by
  intro m n same
  have digits : Nat.toDigits 10 m = Nat.toDigits 10 n := String.ofList_injective same
  rw [← Nat.ofDigitChars_ten_toDigits (n := m), digits, Nat.ofDigitChars_ten_toDigits]

theorem isDigit_of_mem_decimal {n : Nat} {c : Char} (member : c ∈ (decimal n).toList) :
    c.isDigit = true := by
  rw [decimal, String.toList_ofList] at member
  exact Nat.isDigit_of_mem_toDigits (by decide) (by decide) member

theorem oneLine_decimal (n : Nat) : OneLine (decimal n) := by
  intro member
  have digit := isDigit_of_mem_decimal member
  revert digit
  decide

theorem mem_splitDots {c : Char} {cs : List Char} (member : c ∈ cs) :
    c = '.' ∨ ∃ part ∈ Dotted.splitDots cs, c ∈ part := by
  induction cs with
  | nil => cases member
  | cons first rest ih =>
    by_cases dot : first = '.'
    · rcases List.mem_cons.mp member with rfl | inRest
      · exact .inl dot
      · rcases ih inRest with same | ⟨part, inParts, inPart⟩
        · exact .inl same
        · refine .inr ⟨part, ?_, inPart⟩
          simp only [Dotted.splitDots, dot, if_true]
          exact List.mem_cons_of_mem _ inParts
    · cases parts : Dotted.splitDots rest with
      | nil => exact absurd parts (Dotted.splitDots_ne_nil rest)
      | cons head tail =>
        simp only [Dotted.splitDots, dot, if_false, parts]
        rcases List.mem_cons.mp member with rfl | inRest
        · exact .inr ⟨_, List.mem_cons_self .., List.mem_cons_self ..⟩
        · rcases ih inRest with same | ⟨part, inParts, inPart⟩
          · exact .inl same
          · rw [parts] at inParts
            rcases List.mem_cons.mp inParts with rfl | inTail
            · exact .inr ⟨_, List.mem_cons_self .., List.mem_cons_of_mem _ inPart⟩
            · exact .inr ⟨part, List.mem_cons_of_mem _ inTail, inPart⟩

theorem isContinue_of_mem {name : String} (identifier : Identifier.isIdentifier name = true)
    {c : Char} (member : c ∈ name.toList) : Identifier.isContinue c = true := by
  unfold Identifier.isIdentifier at identifier
  cases chars : name.toList with
  | nil =>
    rw [chars] at member
    cases member
  | cons first rest =>
    rw [chars] at identifier member
    simp only [Identifier.isIdentifierChars, Bool.and_eq_true, List.all_eq_true] at identifier
    rcases List.mem_cons.mp member with rfl | inRest
    · exact Identifier.isContinue_of_isStart identifier.1
    · exact identifier.2 c inRest

/-- A name made of identifiers with dots between them holds no line break. -/
theorem oneLine_of_identifiers {name : String}
    (identifiers : (Dotted.components name).all Identifier.isIdentifier = true) :
    OneLine name := by
  intro member
  rcases mem_splitDots member with dot | ⟨part, inParts, inPart⟩
  · cases dot
  · have identifier := List.all_eq_true.mp identifiers (String.ofList part)
      (List.mem_map.mpr ⟨part, inParts, rfl⟩)
    have inName : '\n' ∈ (String.ofList part).toList := by rwa [String.toList_ofList]
    have continues := isContinue_of_mem identifier inName
    revert continues
    decide

end EnumLookup.Text
