import Mathlib.Data.List.Basic

/-!
# The order of texts

Texts compare in the same way by their characters and by the bytes of their UTF-8 form: of two
different characters the lesser one has, at the first byte where their forms differ, the lesser
byte.  The order that keeps maps sorted is the same again.
-/

namespace Lineage.Text

def bytes (text : String) : List UInt8 :=
  text.toUTF8.data.toList

theorem bytes_eq_flatMap (text : String) :
    bytes text = text.toList.flatMap String.utf8EncodeChar := by
  have encoded : text.toUTF8 = text.toList.utf8Encode := String.utf8Encode_toList.symm
  rw [bytes, encoded, List.utf8Encode, List.data_toByteArray]

/-! ## Characters -/

variable {m n : Nat} {first second : List UInt8}

private theorem byte_lt (le : m ≤ n) (bound : n < 256) (rest : m = n → first < second) :
    UInt8.ofNat m :: first < UInt8.ofNat n :: second := by
  rw [List.cons_lt_cons_iff, UInt8.lt_iff_toNat_lt, UInt8.toNat_ofNat', UInt8.toNat_ofNat']
  rcases Nat.lt_or_eq_of_le le with less | rfl
  · left
    omega
  · exact .inr ⟨rfl, rest rfl⟩

/-- A byte that holds the last six bits of a number, all other bits being equal. -/
private theorem lastBits_lt (le : m ≤ n) (same : m / 64 = n / 64)
    (rest : m = n → first < second) :
    UInt8.ofNat (m % 64 + 128) :: first < UInt8.ofNat (n % 64 + 128) :: second :=
  byte_lt (by omega) (by omega) fun _ => rest (by omega)

theorem utf8EncodeChar_lt {c d : Char} (h : c < d) (first second : List UInt8) :
    String.utf8EncodeChar c ++ first < String.utf8EncodeChar d ++ second := by
  have less : c.val.toNat < d.val.toNat := h
  have bound : d.val.toNat < 0x110000 := by
    rcases d.valid with low | ⟨_, high⟩ <;> omega
  unfold String.utf8EncodeChar
  simp only
  split_ifs
  all_goals try omega
  -- Forms of different lengths differ in their first bytes, as those of a single byte do.
  all_goals try exact byte_lt (by omega) (by omega) fun _ => by omega
  · refine byte_lt (by omega) (by omega) fun _ => ?_
    exact lastBits_lt (by omega) (by omega) fun _ => by omega
  · refine byte_lt (by omega) (by omega) fun _ => ?_
    refine lastBits_lt (by omega) (by omega) fun _ => ?_
    exact lastBits_lt (by omega) (by omega) fun _ => by omega
  · refine byte_lt (by omega) (by omega) fun _ => ?_
    refine lastBits_lt (by omega) (by omega) fun _ => ?_
    refine lastBits_lt (by omega) (by omega) fun _ => ?_
    exact lastBits_lt (by omega) (by omega) fun _ => by omega

/-! ## Texts -/

theorem compare_eq_lt_iff {first second : String} :
    compare first second = .lt ↔ first < second :=
  compareOfLessAndEq_eq_lt

theorem flatMap_utf8EncodeChar_lt {first second : List Char} (h : first < second) :
    first.flatMap String.utf8EncodeChar < second.flatMap String.utf8EncodeChar := by
  induction h with
  | @nil c rest =>
      cases encoded : String.utf8EncodeChar c with
      | nil => exact absurd encoded String.utf8EncodeChar_ne_nil
      | cons byte others => simp [encoded]
  | rel h => exact utf8EncodeChar_lt h _ _
  | cons _ ih => exact List.append_left_lt ih

theorem bytes_lt {first second : String} (h : first < second) : bytes first < bytes second := by
  rw [bytes_eq_flatMap, bytes_eq_flatMap]
  exact flatMap_utf8EncodeChar_lt h

theorem bytes_le_iff (first second : String) : bytes first ≤ bytes second ↔ first ≤ second := by
  constructor
  · intro le
    rw [← String.not_lt]
    exact fun greater => le (bytes_lt greater)
  · intro le
    rcases Decidable.em (first = second) with rfl | differs
    · exact List.le_refl _
    · exact List.le_of_lt (bytes_lt (Std.lt_of_le_of_ne le differs))

end Lineage.Text
