import AuditTrail.Proofs.Text.Positional
import AuditTrail.Time.Relaxed
import Mathlib.Data.List.TakeDrop

/-! The parts of a written instant are read back one by one, whatever follows them: numbers of a fixed
count of digits, marks and fractions. -/
namespace AuditTrail.Instant

open Positional

variable {width n : Nat} {rest : List Char}

theorem length_le_utf8ByteSize (cs : List Char) : cs.length ≤ (String.ofList cs).utf8ByteSize := by
  induction cs with
  | nil => exact Nat.zero_le _
  | cons c cs ih =>
    rw [String.ofList_cons, String.utf8ByteSize_append, String.utf8ByteSize_singleton,
      List.length_cons, Nat.add_comm]
    exact Nat.add_le_add c.utf8Size_pos ih

theorem readDigits_padded (small : n < Nat.pow 10 width) :
    readDigits width (padded width n ++ rest) = .ok (n, rest) := by
  have front : (padded width n ++ rest).take width = padded width n :=
    List.take_left' (length_padded width n)
  have back : (padded width n ++ rest).drop width = rest :=
    List.drop_left' (length_padded width n)
  simp only [readDigits, front, back, mapM_decimalValue?_padded, length_digits, if_true,
    value_digits width small]

/-! Digits of any count -/

theorem stops_cons {c : Char} (stop : decimalValue? c = none) (rest : List Char) :
    ∀ x ∈ (c :: rest).head?, decimalValue? x = none :=
  fun _ same => Option.some.inj same ▸ stop

/-- Digits end where something else begins. -/
theorem spanDigits_append {ds : List Char} (digits : ∀ c ∈ ds, (decimalValue? c).isSome = true)
    (ends : ∀ c ∈ rest.head?, decimalValue? c = none) : spanDigits (ds ++ rest) = (ds, rest) := by
  rw [spanDigits, List.span_eq_takeWhile_dropWhile, List.takeWhile_append_of_pos digits,
    List.dropWhile_append_of_pos digits]
  cases rest with
  | nil => simp
  | cons c rest =>
    have stop : decimalValue? c = none := ends c rfl
    simp [stop]

theorem spanDigits_padded (ends : ∀ c ∈ rest.head?, decimalValue? c = none) :
    spanDigits (padded width n ++ rest) = (padded width n, rest) :=
  spanDigits_append (fun _ => decimalValue?_of_mem_padded) ends

theorem digitsValue_padded (small : n < Nat.pow 10 width) : digitsValue (padded width n) = n := by
  have tens : ∀ d ∈ digits 10 width n, d < 10 := fun _ => lt_of_mem_digits_ten
  rw [digitsValue, padded, filterMap_decimalValue?_digitChar tens, value_digits width small]

/-- A zero at the end multiplies by ten. -/
theorem digitsValue_zeros (ds : List Char) (count : Nat) :
    digitsValue (ds ++ List.replicate count '0') = digitsValue ds * Nat.pow 10 count := by
  induction count with
  | zero => simp
  | succ count ih =>
    have zero : (['0'] : List Char).filterMap decimalValue? = [0] := rfl
    rw [List.replicate_succ', ← List.append_assoc]
    rw [digitsValue] at ih ⊢
    rw [List.filterMap_append, zero, value_append_singleton, ih, Nat.add_zero, Nat.mul_assoc]
    rfl

/-- A fraction is read as nanoseconds, however many of its nine places are written. -/
theorem readFraction_padded (rest : List Char) (some : 0 < width) (nine : width ≤ 9)
    (small : n < Nat.pow 10 width) (ends : ∀ c ∈ rest.head?, decimalValue? c = none) :
    readFraction (padded width n ++ rest) = .ok (n * Nat.pow 10 (9 - width), rest) := by
  have length := length_padded width n
  have written : (padded width n).isEmpty = false := by
    rw [List.isEmpty_eq_false_iff, ← List.length_pos_iff, length]
    exact some
  have first : (padded width n).take 9 = padded width n :=
    List.take_of_length_le (Nat.le_trans (Nat.le_of_eq length) nine)
  rw [readFraction, spanDigits_padded ends]
  simp only [written, Bool.false_eq_true, if_false, first, length, digitsValue_zeros,
    digitsValue_padded small]

/-- A fraction that is not left out has one to nine places, which hold its value. -/
theorem writeFraction_cases (small : n < 1000000000) : writeFraction n = [] ∧ n = 0 ∨
    ∃ width m, 0 < width ∧ width ≤ 9 ∧ m < Nat.pow 10 width ∧ m * Nat.pow 10 (9 - width) = n ∧
      writeFraction n = '.' :: padded width m := by
  unfold writeFraction
  split
  · next zero => exact .inl ⟨rfl, zero⟩
  · right
    split
    · next whole => exact ⟨3, n / 1000000, by decide, by decide, by simp; omega, by simp; omega, rfl⟩
    · split
      · next whole => exact ⟨6, n / 1000, by decide, by decide, by simp; omega, by simp; omega, rfl⟩
      · exact ⟨9, n, by decide, by decide, by simpa, by simp, rfl⟩

end AuditTrail.Instant
