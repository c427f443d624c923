/-!
Numbers written in a base: digit lists of a fixed width, the value of a digit list, and the
characters of decimal and hexadecimal digits. Main statement: a number that fits a width is read
back from its digits.
-/
namespace AuditTrail.Positional

/-- The `width` lowest digits of `n` in base `base`, highest first. -/
def digits (base : Nat) : Nat → Nat → List Nat
  | 0, _ => []
  | width + 1, n => digits base width (n / base) ++ [n % base]

def value (base : Nat) (ds : List Nat) : Nat :=
  ds.foldl (fun acc d => acc * base + d) 0

@[simp] theorem length_digits (base width n : Nat) : (digits base width n).length = width := by
  induction width generalizing n with
  | zero => rfl
  | succ w ih => simp [digits, ih]

theorem value_append_singleton (base : Nat) (ds : List Nat) (d : Nat) :
    value base (ds ++ [d]) = value base ds * base + d := by
  simp [value]

theorem value_digits {base : Nat} (width : Nat) :
    ∀ {n : Nat}, n < Nat.pow base width → value base (digits base width n) = n := by
  induction width with
  | zero => intro n h; simp at h; simp [digits, value, h]
  | succ w ih =>
    intro n h
    have small : n / base < Nat.pow base w := by
      apply Nat.div_lt_of_lt_mul
      have h : n < Nat.pow base w * base := h
      rwa [Nat.mul_comm] at h
    rw [digits, value_append_singleton, ih small, Nat.mul_comm]
    exact Nat.div_add_mod n base

theorem lt_of_mem_digits {base : Nat} (pos : 0 < base) (width : Nat) :
    ∀ {n d : Nat}, d ∈ digits base width n → d < base := by
  induction width with
  | zero => intro n d h; simp [digits] at h
  | succ w ih =>
    intro n d h
    simp only [digits, List.mem_append, List.mem_singleton] at h
    rcases h with h | h
    · exact ih h
    · exact h ▸ Nat.mod_lt n pos

def digitChar (d : Nat) : Char :=
  if d < 10 then Char.ofNat (48 + d) else Char.ofNat (87 + d)

def decimalValue? (c : Char) : Option Nat :=
  if '0' ≤ c ∧ c ≤ '9' then some (c.toNat - 48) else none

/-- The value of a hexadecimal digit, in either letter case. -/
def hexValue? (c : Char) : Option Nat :=
  if '0' ≤ c ∧ c ≤ '9' then some (c.toNat - 48)
  else if 'a' ≤ c ∧ c ≤ 'f' then some (c.toNat - 87)
  else if 'A' ≤ c ∧ c ≤ 'F' then some (c.toNat - 55)
  else none

theorem hexValue?_digitChar : ∀ d, d < 16 → hexValue? (digitChar d) = some d := by decide

theorem decimalValue?_digitChar : ∀ d, d < 10 → decimalValue? (digitChar d) = some d := by decide

/-- Exactly `width` decimal digits, with zeros in front. -/
def padded (width n : Nat) : List Char :=
  (digits 10 width n).map digitChar

/-- The decimal digits of a number, without leading zeros. -/
def decimal (n : Nat) : List Char :=
  Nat.toDigits 10 n

/-- Reads one or more decimal digits and nothing else. -/
def natural? : List Char → Option Nat
  | [] => none
  | cs => (cs.mapM decimalValue?).map (value 10)

/-- Reads an unsigned number up to `max`; a plus sign may stand in front. -/
def unsigned? (max : Nat) (cs : List Char) : Option Nat :=
  let ds := match cs with
    | '+' :: r => r
    | _ => cs
  (natural? ds).filter (· ≤ max)

end AuditTrail.Positional
