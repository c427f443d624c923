import AuditTrail.Proofs.Sequence
import AuditTrail.Text.Utf8

/-! The bytes of a text are divided into the characters of the text, and texts come in the order of
their bytes. -/
namespace AuditTrail.Utf8

theorem toList_loop (bytes : ByteArray) (i : Nat) (acc : List UInt8) :
    ByteArray.toList.loop bytes i acc = acc.reverse ++ bytes.data.toList.drop i := by
  fun_induction ByteArray.toList.loop bytes i acc with
  | case1 i acc inside ih =>
    have bound : i < bytes.data.toList.length := inside
    have first : bytes.get! i = bytes.data.toList[i] := by
      cases bytes
      exact getElem!_pos _ _ _
    rw [ih, List.drop_eq_getElem_cons bound, first, List.reverse_cons, List.append_assoc]
    rfl
  | case2 i acc outside =>
    rw [List.drop_eq_nil_of_le (Nat.le_of_not_lt outside), List.append_nil]

theorem encode_eq_flatMap (s : String) : encode s = s.toList.flatMap String.utf8EncodeChar := by
  have bytes : s.toUTF8 = (s.toList.flatMap String.utf8EncodeChar).toByteArray := by
    rw [String.toUTF8_eq_toByteArray, ← String.utf8Encode_toList, List.utf8Encode]
  rw [encode, ByteArray.toList, toList_loop, bytes, List.toList_data_toByteArray]
  simp

/-! One character, by the numbers of its bytes -/

theorem isContinuation_iff (b : UInt8) :
    isContinuation b = true ↔ 128 ≤ b.toNat ∧ b.toNat < 192 := by
  simp [isContinuation, UInt8.le_iff_toNat_le, Nat.lt_succ_iff]

theorem follows_iff (a b : UInt8) : follows a b = true ↔
    194 ≤ a.toNat ∧ a.toNat ≤ 244 ∧ 128 ≤ b.toNat ∧ b.toNat ≤ 191 ∧
      (a.toNat = 224 → 160 ≤ b.toNat) ∧ (a.toNat = 237 → b.toNat ≤ 159) ∧
      (a.toNat = 240 → 144 ≤ b.toNat) ∧ (a.toNat = 244 → b.toNat ≤ 143) := by
  simp only [follows, UInt8.lt_iff_toNat_lt, UInt8.le_iff_toNat_le, ← UInt8.toNat_inj,
    UInt8.reduceToNat]
  repeat' split
  all_goals simp only [isContinuation_iff, Bool.and_eq_true, decide_eq_true_eq, Bool.false_eq_true,
    false_iff]
  all_goals omega

section
variable {k l m n : Nat} {r : List UInt8}

theorem toNat_byte (small : n < 256) : (UInt8.ofNat n).toNat = n := UInt8.toNat_ofNat_of_lt small

theorem byte_lt_iff (small : n < 256) {b : UInt8} : UInt8.ofNat n < b ↔ n < b.toNat := by
  rw [UInt8.lt_iff_toNat_lt, toNat_byte small]

theorem isContinuation_byte (later : 128 ≤ n ∧ n < 192) : isContinuation (.ofNat n) = true := by
  rw [isContinuation_iff, toNat_byte (by omega)]
  exact later

theorem payload_byte (later : 128 ≤ n ∧ n < 192) : payload (.ofNat n) = n - 128 := by
  rw [payload, toNat_byte (by omega)]
  omega

theorem units_one (low : n < 128) : units (.ofNat n :: r) = some (Char.ofNat n) :: units r := by
  have small : n < 256 := by omega
  rw [units.eq_def]
  simp only [byte_lt_iff small, UInt8.reduceToNat, low, if_true, toNat_byte small]

theorem units_two (lead : 194 ≤ m ∧ m < 224) (second : 128 ≤ n ∧ n < 192) :
    units (.ofNat m :: .ofNat n :: r) = some (Char.ofNat ((m - 192) * 64 + (n - 128))) :: units r := by
  have small : m < 256 := by omega
  have next : follows (.ofNat m) (.ofNat n) = true := by
    rw [follows_iff, toNat_byte small, toNat_byte (by omega)]
    omega
  have high : ¬ m < 128 := by omega
  have number : m % 32 = m - 192 := by omega
  rw [units.eq_def]
  simp only [byte_lt_iff small, UInt8.reduceToNat, high, next, lead.2, toNat_byte small, number,
    payload_byte second, if_false, if_true, Bool.not_true, Bool.false_eq_true]

theorem units_three (lead : 224 ≤ l ∧ l < 240) (second : 128 ≤ m ∧ m < 192)
    (long : l = 224 → 160 ≤ m) (whole : l = 237 → m < 160) (third : 128 ≤ n ∧ n < 192) :
    units (.ofNat l :: .ofNat m :: .ofNat n :: r)
      = some (Char.ofNat (((l - 224) * 64 + (m - 128)) * 64 + (n - 128))) :: units r := by
  have small : l < 256 := by omega
  have next : follows (.ofNat l) (.ofNat m) = true := by
    rw [follows_iff, toNat_byte small, toNat_byte (by omega)]
    omega
  have high : ¬ l < 128 := by omega
  have more : ¬ l < 224 := by omega
  have number : l % 16 = l - 224 := by omega
  rw [units.eq_def]
  simp only [byte_lt_iff small, UInt8.reduceToNat, high, next, more, isContinuation_byte third, lead.2,
    toNat_byte small, number, payload_byte second, payload_byte third, if_false, if_true,
    Bool.not_true, Bool.false_eq_true]

theorem units_four (lead : 240 ≤ k ∧ k < 245) (second : 128 ≤ l ∧ l < 192)
    (long : k = 240 → 144 ≤ l) (whole : k = 244 → l < 144) (third : 128 ≤ m ∧ m < 192)
    (last : 128 ≤ n ∧ n < 192) : units (.ofNat k :: .ofNat l :: .ofNat m :: .ofNat n :: r)
      = some (Char.ofNat ((((k - 240) * 64 + (l - 128)) * 64 + (m - 128)) * 64 + (n - 128)))
          :: units r := by
  have small : k < 256 := by omega
  have next : follows (.ofNat k) (.ofNat l) = true := by
    rw [follows_iff, toNat_byte small, toNat_byte (by omega)]
    omega
  have high : ¬ k < 128 := by omega
  have more : ¬ k < 224 := by omega
  have most : ¬ k < 240 := by omega
  have number : k % 8 = k - 240 := by omega
  rw [units.eq_def]
  simp only [byte_lt_iff small, UInt8.reduceToNat, high, next, more, isContinuation_byte third, most,
    isContinuation_byte last, toNat_byte small, number, payload_byte second, payload_byte third,
    payload_byte last, if_false, Bool.not_true, Bool.false_eq_true]
end

theorem char_eq {c : Char} {n : Nat} (same : n = c.toNat) : Char.ofNat n = c := by
  rw [same, Char.ofNat_toNat]

theorem units_utf8EncodeChar (c : Char) (r : List UInt8) :
    units (String.utf8EncodeChar c ++ r) = some c :: units r := by
  have valid : c.toNat < 0xD800 ∨ 0xDFFF < c.toNat ∧ c.toNat < 0x110000 := c.valid
  have value : c.val.toNat = c.toNat := rfl
  unfold String.utf8EncodeChar
  simp only [value]
  repeat' split
  · rw [List.cons_append, List.nil_append, units_one (by omega), char_eq rfl]
  · rw [List.cons_append, List.cons_append, List.nil_append, units_two (by omega) (by omega), char_eq]
    omega
  · rw [List.cons_append, List.cons_append, List.cons_append, List.nil_append,
      units_three (by omega) (by omega) (by omega) (by omega) (by omega), char_eq]
    omega
  · rw [List.cons_append, List.cons_append, List.cons_append, List.cons_append, List.nil_append,
      units_four (by omega) (by omega) (by omega) (by omega) (by omega) (by omega), char_eq]
    omega

/-- What is written of a text is divided into its characters. -/
theorem units_encode (s : String) : units (encode s) = s.toList.map some := by
  rw [encode_eq_flatMap]
  induction s.toList with
  | nil => rfl
  | cons c cs ih => rw [List.flatMap_cons, units_utf8EncodeChar, ih, List.map_cons]

end AuditTrail.Utf8
