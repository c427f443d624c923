import AuditTrail.Time.Calendar
import Mathlib.Algebra.Ring.Nat

/-! Counted days and calendar dates. Every day has a valid date, from which it is counted again, and
later days have later dates. -/
namespace AuditTrail.Calendar

/-! Years -/

/-- The number of days of a year. -/
def daysInYear (year : Int) : Int := if isLeap year then 366 else 365

theorem daysBeforeYear_succ (year : Int) :
    daysBeforeYear (year + 1) = daysBeforeYear year + daysInYear year := by
  have leap : isLeap year = true ↔ year % 4 = 0 ∧ (year % 100 ≠ 0 ∨ year % 400 = 0) := by
    simp [isLeap]
  unfold daysBeforeYear daysInYear
  simp only [leap]
  split <;> omega

theorem daysInYear_pos (year : Int) : 0 < daysInYear year := by
  unfold daysInYear
  split <;> decide

/-- The days of earlier years are over before a year begins. -/
theorem daysBeforeYear_add_le {a b : Int} (less : a < b) :
    daysBeforeYear a + daysInYear a ≤ daysBeforeYear b := by
  obtain ⟨n, rfl⟩ := Int.le.dest (show a + 1 ≤ b from less)
  rw [← daysBeforeYear_succ]
  induction n with
  | zero => simp
  | succ n ih =>
    have next := daysBeforeYear_succ (a + 1 + n)
    have pos := daysInYear_pos (a + 1 + n)
    rw [Int.add_assoc] at next
    have earlier := ih (by omega)
    rw [show ((n + 1 : Nat) : Int) = (n : Int) + 1 from rfl, ← Int.add_assoc (a + 1),
      Int.add_assoc (a + 1)]
    omega

/-- A year by the spans before it: 400, 100 and 4 years, and single years. -/
theorem daysBeforeYear_spans {a b c d : Int} (hb : 0 ≤ b ∧ b ≤ 3) (hc : 0 ≤ c ∧ c ≤ 24)
    (hd : 0 ≤ d ∧ d ≤ 3) :
    daysBeforeYear (a * 400 + b * 100 + c * 4 + d + 1)
      = a * 146097 + b * 36524 + c * 1461 + d * 365 := by
  unfold daysBeforeYear
  have fours : (a * 400 + b * 100 + c * 4 + d + 1 - 1) / 4 = a * 100 + b * 25 + c := by omega
  have hundreds : (a * 400 + b * 100 + c * 4 + d + 1 - 1) / 100 = a * 4 + b := by omega
  have spans : (a * 400 + b * 100 + c * 4 + d + 1 - 1) / 400 = a := by omega
  simp only [fours, hundreds, spans]
  omega

/-- The last year of four is a leap year, unless it is the last of a hundred but not of 400. -/
theorem isLeap_spans {a b c d : Int} (hb : 0 ≤ b ∧ b ≤ 3) (hc : 0 ≤ c ∧ c ≤ 24)
    (hd : 0 ≤ d ∧ d ≤ 3) :
    isLeap (a * 400 + b * 100 + c * 4 + d + 1) = true ↔ d = 3 ∧ (c ≠ 24 ∨ b = 3) := by
  simp only [isLeap, Bool.and_eq_true, Bool.or_eq_true, decide_eq_true_eq, ne_eq]
  omega

/-- The year and the place in it that `yearOfDays` finds are those of the day. -/
theorem yearOfDays_spec (n : Int) :
    daysBeforeYear (yearOfDays n).1 + (yearOfDays n).2 = n ∧
      ((yearOfDays n).2 : Int) < daysInYear (yearOfDays n).1 := by
  unfold yearOfDays
  simp only
  obtain ⟨a, ha⟩ : ∃ a, a = n / 146097 := ⟨_, rfl⟩
  obtain ⟨b, hb⟩ : ∃ b, b = min (n % 146097 / 36524) 3 := ⟨_, rfl⟩
  obtain ⟨r, hr⟩ : ∃ r, r = n % 146097 - b * 36524 := ⟨_, rfl⟩
  obtain ⟨d, hd⟩ : ∃ d, d = min (r % 1461 / 365) 3 := ⟨_, rfl⟩
  rw [← hb, ← ha, ← hr, ← hd]
  have spanB : 0 ≤ b ∧ b ≤ 3 := by omega
  have spanR : 0 ≤ r ∧ r ≤ 36524 ∧ (r = 36524 → b = 3) := by omega
  have spanC : 0 ≤ r / 1461 ∧ r / 1461 ≤ 24 := by omega
  have spanD : 0 ≤ d ∧ d ≤ 3 := by omega
  have day : 0 ≤ r % 1461 - d * 365 ∧ r % 1461 - d * 365 ≤ 365 := by omega
  rw [daysBeforeYear_spans spanB spanC spanD, Int.toNat_of_nonneg day.1]
  refine ⟨by omega, ?_⟩
  unfold daysInYear
  simp only [isLeap_spans spanB spanC spanD]
  split <;> omega

/-! Months -/

theorem monthOfDay_spec {lens : List Nat} {n : Nat} (inside : n < lens.sum) (month : Nat) :
    ∃ k len, lens[k]? = some len ∧ (monthOfDay month lens n).1 = month + k ∧
      1 ≤ (monthOfDay month lens n).2 ∧ (monthOfDay month lens n).2 ≤ len ∧
      (lens.take k).sum + (monthOfDay month lens n).2 = n + 1 := by
  induction lens generalizing n month with
  | nil => simp at inside
  | cons len rest ih =>
    rw [monthOfDay]
    split
    · next here => exact ⟨0, len, by simp, by simp, by simp, here, by simp⟩
    · next later =>
      rw [List.sum_cons] at inside
      obtain ⟨k, last, found, place, first, bound, total⟩ := ih (n := n - len) (by omega)
        (month + 1)
      refine ⟨k + 1, last, by simpa using found, by omega, first, bound, ?_⟩
      rw [List.take_succ_cons, List.sum_cons]
      omega

theorem sum_monthLengths (leap : Bool) :
    (monthLengths leap).sum = if leap then 366 else 365 := by
  cases leap <;> rfl

theorem daysBeforeMonth_eq (leap : Bool) (month : Nat) :
    daysBeforeMonth leap month = ((monthLengths leap).take (month - 1)).sum :=
  List.sum_eq_foldl.symm

theorem daysInMonth_eq {year : Int} {k len : Nat}
    (found : (monthLengths (isLeap year))[k]? = some len) :
    daysInMonth year (k + 1) = len := by
  simp [daysInMonth, List.getD, found]

/-! Dates -/

namespace Date

/-- A date is made of its year, and of the month and the day that make up the place in the year. -/
theorem ofDays_spec (n : Int) : (ofDays n).isValid = true ∧ (ofDays n).toDays = n := by
  obtain ⟨total, inside⟩ := yearOfDays_spec (n + epochDays)
  unfold ofDays
  simp only
  generalize yearOfDays (n + epochDays) = p at total inside
  obtain ⟨year, place⟩ := p
  simp only at total inside ⊢
  have within : place < (monthLengths (isLeap year)).sum := by
    rw [sum_monthLengths]
    unfold daysInYear at inside
    cases leap : isLeap year <;>
      simp only [leap, Bool.false_eq_true, if_true, if_false] at inside ⊢ <;> omega
  obtain ⟨k, len, found, month, first, last, sum⟩ := monthOfDay_spec within 1
  have length := daysInMonth_eq found
  rw [Nat.add_comm] at month
  constructor
  · simp only [isValid, month, length, first, last, decide_true, Bool.and_self]
  · simp only [toDays, month, daysBeforeMonth_eq, Nat.add_sub_cancel]
    omega

@[simp] theorem isValid_ofDays (n : Int) : (ofDays n).isValid = true := (ofDays_spec n).1

@[simp] theorem toDays_ofDays (n : Int) : (ofDays n).toDays = n := (ofDays_spec n).2

/-- Whether a date is earlier than another. -/
def Before (a b : Date) : Prop :=
  a.year < b.year ∨ a.year = b.year ∧
    (a.month < b.month ∨ a.month = b.month ∧ a.day < b.day)

theorem before_trichotomy (a b : Date) : a.Before b ∨ a = b ∨ b.Before a := by
  rcases a with ⟨year, month, day⟩
  rcases b with ⟨year', month', day'⟩
  simp only [Before, mk.injEq]
  omega

/-- The days of a month lie before later months and within the year. -/
theorem days_of_month : ∀ leap : Bool, ∀ m, m < 13 → 1 ≤ m →
    daysBeforeMonth leap m + (monthLengths leap).getD (m - 1) 0 ≤ (if leap then 366 else 365) ∧
      ∀ k, k < 13 → m < k →
        daysBeforeMonth leap m + (monthLengths leap).getD (m - 1) 0 ≤ daysBeforeMonth leap k := by
  decide

theorem month_of_isValid {a : Date} (valid : a.isValid = true) :
    1 ≤ a.month ∧ a.month < 13 ∧ 1 ≤ a.day ∧
      a.day ≤ (monthLengths (isLeap a.year)).getD (a.month - 1) 0 := by
  simp only [isValid, Bool.and_eq_true, decide_eq_true_eq] at valid
  obtain ⟨first, last⟩ := valid
  rw [daysInMonth] at last
  by_cases none : a.month = 0
  · rw [if_pos none] at last
    omega
  · rw [if_neg none] at last
    refine ⟨by omega, Nat.lt_of_not_le fun beyond => ?_, first, last⟩
    have missing : (monthLengths (isLeap a.year)).length ≤ a.month - 1 := by
      rw [monthLengths, List.length_cons]
      exact Nat.sub_le_sub_right beyond 1
    rw [List.getD_eq_getElem?_getD, List.getElem?_eq_none missing] at last
    exact Nat.lt_irrefl 0 (Nat.lt_of_lt_of_le first last)

theorem toDays_lt_toDays {a b : Date} (left : a.isValid = true) (right : b.isValid = true)
    (before : a.Before b) : a.toDays < b.toDays := by
  obtain ⟨first, last, day, bound⟩ := month_of_isValid left
  obtain ⟨first', last', day', bound'⟩ := month_of_isValid right
  obtain ⟨inYear, inMonth⟩ := days_of_month (isLeap a.year) a.month last first
  unfold toDays
  rcases before with year | ⟨year, month | ⟨month, less⟩⟩
  · have years := daysBeforeYear_add_le year
    unfold daysInYear at years
    split at years <;> simp_all <;> omega
  · have months := inMonth b.month last' month
    rw [← year]
    omega
  · rw [← year, ← month]
    omega

/-- Later days have later dates. -/
theorem before_ofDays_iff {m n : Int} : (ofDays m).Before (ofDays n) ↔ m < n := by
  have forward {m n : Int} (before : (ofDays m).Before (ofDays n)) : m < n := by
    simpa using toDays_lt_toDays (isValid_ofDays m) (isValid_ofDays n) before
  refine ⟨forward, fun less => ?_⟩
  rcases before_trichotomy (ofDays m) (ofDays n) with before | same | after
  · exact before
  · have same := congrArg toDays same
    rw [toDays_ofDays, toDays_ofDays] at same
    omega
  · have more := forward after
    omega

end Date

end AuditTrail.Calendar
