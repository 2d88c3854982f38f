import EnumLookup.SourceFile
import Mathlib.Data.List.Basic

/-!
The bytes of a text in UTF-8. A line end and a zero are one byte each, and no other character has
that byte in it, so the lines of a text can be counted in its bytes, and its zeros found there.
-/
namespace EnumLookup.Encoding

theorem toList_loop (bytes : ByteArray) (i : Nat) (taken : List UInt8) :
    ByteArray.toList.loop bytes i taken = taken.reverse ++ bytes.data.toList.drop i := by
  fun_induction ByteArray.toList.loop bytes i taken with
  | case1 i taken inside ih =>
    have inside : i < bytes.data.toList.length := inside
    rw [ih, List.drop_eq_getElem_cons inside, List.reverse_cons, List.append_assoc]
    simp [ByteArray.get!, getElem!_pos bytes.data i inside]
  | case2 i taken outside =>
    have outside : bytes.data.toList.length ≤ i := Nat.le_of_not_lt outside
    rw [List.drop_of_length_le outside, List.append_nil]

theorem toList_eq (bytes : ByteArray) : bytes.toList = bytes.data.toList := by
  rw [ByteArray.toList, toList_loop, List.reverse_nil, List.nil_append, List.drop_zero]

theorem utf8_eq_flatMap (text : String) :
    EnumLookup.utf8 text = text.toList.flatMap String.utf8EncodeChar := by
  have encoded : text.toByteArray = text.toList.utf8Encode := by
    rw [← String.toByteArray_ofList, String.ofList_toList]
  rw [EnumLookup.utf8, String.toUTF8_eq_toByteArray, toList_eq, encoded, List.utf8Encode,
    List.data_toByteArray]

theorem not_mem_of_high {byte : UInt8} (ascii : byte.toNat < 128) (values : List Nat)
    (high : ∀ value ∈ values, 128 ≤ value ∧ value < 256) : byte ∉ values.map UInt8.ofNat := by
  intro member
  obtain ⟨value, inside, same⟩ := List.mem_map.mp member
  have number : value % 256 = byte.toNat := congrArg UInt8.toNat same
  have bounds := high value inside
  omega

/-- A byte of an ASCII character is in no other character. -/
theorem toNat_of_mem_utf8EncodeChar {byte : UInt8} (ascii : byte.toNat < 128) {c : Char}
    (member : byte ∈ String.utf8EncodeChar c) : c.toNat = byte.toNat := by
  unfold String.utf8EncodeChar at member
  dsimp only at member
  split at member
  · next small =>
    have number : byte.toNat = c.val.toNat % 256 :=
      congrArg UInt8.toNat (List.mem_singleton.mp member)
    have value : c.val.toNat = byte.toNat := by omega
    exact value
  split at member
  · exact absurd member (not_mem_of_high ascii [_, _] (by simp; omega))
  split at member
  · exact absurd member (not_mem_of_high ascii [_, _, _] (by simp; omega))
  · exact absurd member (not_mem_of_high ascii [_, _, _, _] (by simp; omega))

/-- The byte of a line end is in no other character. -/
theorem mem_utf8EncodeChar {c : Char} (member : 10 ∈ String.utf8EncodeChar c) : c = '\n' :=
  Char.toNat_inj.mp (toNat_of_mem_utf8EncodeChar (by decide) member)

/-- The bytes of a text hold a zero just when the text does. -/
theorem zero_mem_utf8 {text : String} : 0 ∈ EnumLookup.utf8 text ↔ '\x00' ∈ text.toList := by
  rw [utf8_eq_flatMap, List.mem_flatMap]
  constructor
  · rintro ⟨c, inside, member⟩
    obtain rfl : c = '\x00' :=
      Char.toNat_inj.mp (toNat_of_mem_utf8EncodeChar (by decide) member)
    exact inside
  · exact fun inside => ⟨_, inside, by decide⟩

theorem utf8_injective {a b : String} (same : EnumLookup.utf8 a = EnumLookup.utf8 b) : a = b := by
  rw [EnumLookup.utf8, EnumLookup.utf8, toList_eq, toList_eq, String.toUTF8_eq_toByteArray,
    String.toUTF8_eq_toByteArray] at same
  exact String.toByteArray_inj.mp (ByteArray.ext (Array.toList_inj.mp same))

theorem count_utf8EncodeChar (c : Char) :
    (String.utf8EncodeChar c).count 10 = if c == '\n' then 1 else 0 := by
  split
  · next same =>
    obtain rfl := beq_iff_eq.mp same
    rfl
  · next other =>
    rw [List.count_eq_zero]
    exact fun member => other (beq_iff_eq.mpr (mem_utf8EncodeChar member))

/-- As many lines end in the bytes of a text as in the text. -/
theorem count_utf8 (text : String) :
    (EnumLookup.utf8 text).count 10 = text.toList.count '\n' := by
  rw [utf8_eq_flatMap]
  induction text.toList with
  | nil => rfl
  | cons c rest ih =>
    rw [List.flatMap_cons, List.count_append, count_utf8EncodeChar, ih, List.count_cons,
      Nat.add_comm]

end EnumLookup.Encoding
