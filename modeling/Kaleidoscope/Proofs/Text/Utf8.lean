import Kaleidoscope.Text.Utf8
import Mathlib.Data.List.Basic

/-!
# Bytes of texts

An ASCII character is one byte, its code.  Every other character is some bytes
that are no code of an ASCII character.
-/

namespace Kaleidoscope

def IsWide (c : Char) : Prop :=
  128 ≤ c.toNat

instance (c : Char) : Decidable (IsWide c) :=
  inferInstanceAs (Decidable (128 ≤ c.toNat))

namespace Text

theorem utf8_injective {text other : String} (h : utf8 text = utf8 other) : text = other := by
  apply String.toByteArray_inj.mp
  apply ByteArray.ext
  exact Array.toList_inj.mp h

theorem utf8_ne_nil {text : String} (h : text ≠ "") : utf8 text ≠ [] :=
  fun hnil => h (utf8_injective hnil)

theorem utf8_eq_flatMap (text : String) :
    utf8 text = text.toList.flatMap String.utf8EncodeChar := by
  have h := congrArg ByteArray.data (String.toByteArray_ofList (l := text.toList))
  rw [String.ofList_toList, List.utf8Encode, List.data_toByteArray] at h
  rw [utf8, String.toUTF8, h]

theorem utf8_append (text other : String) :
    utf8 (text ++ other) = utf8 text ++ utf8 other := by
  rw [utf8_eq_flatMap, utf8_eq_flatMap, utf8_eq_flatMap, String.toList_append,
    List.flatMap_append]

theorem ofUtf8?_utf8 (text : String) : ofUtf8? (utf8 text) = some text := by
  have hbytes : (⟨(utf8 text).toArray⟩ : ByteArray) = text.toByteArray := rfl
  rw [ofUtf8?, hbytes, String.fromUTF8?, dif_pos text.isValidUTF8]
  rfl

theorem utf8EncodeChar_of_not_isWide {c : Char} (h : ¬ IsWide c) :
    String.utf8EncodeChar c = [UInt8.ofNat c.toNat] := by
  have hsmall : c.val.toNat ≤ 127 := Nat.le_of_lt_succ (Nat.not_le.mp h)
  rw [String.utf8EncodeChar, if_pos hsmall]
  rfl

theorem utf8EncodeChar_of_isWide {c : Char} (h : IsWide c) :
    String.utf8EncodeChar c ≠ [] ∧
      forall byte, byte ∈ String.utf8EncodeChar c -> 128 ≤ byte.toNat := by
  have hlarge : ¬ c.val.toNat ≤ 127 := Nat.not_le.mpr h
  rw [String.utf8EncodeChar, if_neg hlarge]
  -- Two, three or four bytes, each with its highest bit set.
  split_ifs
  all_goals
    refine ⟨List.cons_ne_nil _ _, ?_⟩
    simp only [List.mem_cons, List.not_mem_nil, or_false, forall_eq_or_imp, forall_eq,
      UInt8.toNat_ofNat']
    omega

end Text
end Kaleidoscope
