import AuditTrail.Proofs.Sequence
import AuditTrail.Text.Positional
import Mathlib.Algebra.Ring.Nat
import Mathlib.Data.List.Induction

/-! Numbers with a fixed count of digits. Their texts are in the order of the numbers, and digits are
read back from them. -/
namespace AuditTrail.Positional

theorem value_append (base : Nat) (as bs : List Nat) :
    value base (as ++ bs) = value base as * Nat.pow base bs.length + value base bs := by
  induction bs using List.reverseRecOn with
  | nil => simp [value]
  | append_singleton bs d ih =>
    have power : Nat.pow base (bs ++ [d]).length = Nat.pow base bs.length * base := by
      rw [List.length_append]
      rfl
    rw [← List.append_assoc, value_append_singleton, value_append_singleton, ih, power,
      Nat.add_mul, Nat.mul_assoc, Nat.add_assoc]

theorem value_cons (base d : Nat) (ds : List Nat) :
    value base (d :: ds) = d * Nat.pow base ds.length + value base ds := by
  simpa [value] using value_append base [d] ds

theorem value_lt {base : Nat} {ds : List Nat} (small : ∀ d ∈ ds, d < base) :
    value base ds < Nat.pow base ds.length := by
  induction ds with
  | nil => exact Nat.one_pos
  | cons d ds ih =>
    obtain ⟨first, rest⟩ := List.forall_mem_cons.mp small
    rw [value_cons]
    calc d * Nat.pow base ds.length + value base ds
        < d * Nat.pow base ds.length + Nat.pow base ds.length := Nat.add_lt_add_left (ih rest) _
      _ = (d + 1) * Nat.pow base ds.length := (Nat.succ_mul _ _).symm
      _ ≤ base * Nat.pow base ds.length := Nat.mul_le_mul_right _ first
      _ = Nat.pow base (d :: ds).length := Nat.mul_comm _ _

/-- Digit lists of one length are in the order of their values. -/
theorem lt_iff_value_lt {base : Nat} {as bs : List Nat} (length : as.length = bs.length)
    (left : ∀ d ∈ as, d < base) (right : ∀ d ∈ bs, d < base) :
    as < bs ↔ value base as < value base bs := by
  induction as generalizing bs with
  | nil =>
    obtain rfl := List.length_eq_zero_iff.mp length.symm
    simp
  | cons a as ih =>
    cases bs with
    | nil => contradiction
    | cons b bs =>
      obtain ⟨-, left⟩ := List.forall_mem_cons.mp left
      obtain ⟨-, right⟩ := List.forall_mem_cons.mp right
      have length := Nat.succ.inj length
      have smallLeft := value_lt left
      have smallRight := value_lt right
      rw [List.cons_lt_cons_iff, ih length left right, value_cons, value_cons, length]
      rw [length] at smallLeft
      generalize Nat.pow base bs.length = unit at smallLeft smallRight
      rcases Nat.lt_trichotomy a b with less | rfl | more
      · have gap := Nat.mul_le_mul_right unit less
        rw [Nat.succ_mul] at gap
        exact ⟨fun _ => by omega, fun _ => .inl less⟩
      · simp
      · have gap := Nat.mul_le_mul_right unit more
        rw [Nat.succ_mul] at gap
        constructor
        · rintro (less | ⟨rfl, -⟩)
          · omega
          · omega
        · omega

variable {base width n m : Nat}

theorem digits_lt_digits (pos : 0 < base) (left : n < Nat.pow base width)
    (right : m < Nat.pow base width) : digits base width n < digits base width m ↔ n < m := by
  rw [lt_iff_value_lt ((length_digits _ _ _).trans (length_digits _ _ _).symm)
    (fun _ => lt_of_mem_digits pos width) (fun _ => lt_of_mem_digits pos width),
    value_digits width left, value_digits width right]

theorem digitChar_lt_iff : ∀ a, a < 16 → ∀ b, b < 16 → (digitChar a < digitChar b ↔ a < b) := by
  decide

theorem digitChar_inj : ∀ a, a < 16 → ∀ b, b < 16 → (digitChar a = digitChar b ↔ a = b) := by
  decide

/-- Numbers written with one count of digits are in the order of their texts. -/
theorem map_digitChar_lt (pos : 0 < base) (range : base ≤ 16) (left : n < Nat.pow base width)
    (right : m < Nat.pow base width) :
    (digits base width n).map digitChar < (digits base width m).map digitChar ↔ n < m := by
  have small {k d : Nat} (mem : d ∈ digits base width k) : d < 16 :=
    Nat.lt_of_lt_of_le (lt_of_mem_digits pos width mem) range
  rw [map_lt_map_iff (fun a ha b hb => digitChar_lt_iff a (small ha) b (small hb))
    (fun a ha b hb => digitChar_inj a (small ha) b (small hb)), digits_lt_digits pos left right]

theorem digits_inj (left : n < Nat.pow base width) (right : m < Nat.pow base width) :
    digits base width n = digits base width m ↔ n = m := by
  refine ⟨fun same => ?_, fun same => same ▸ rfl⟩
  rw [← value_digits width left, ← value_digits width right, same]

/-- Digits are those of their value. -/
theorem digits_value {ds : List Nat} (small : ∀ d ∈ ds, d < base) :
    digits base ds.length (value base ds) = ds := by
  induction ds using List.reverseRecOn with
  | nil => rfl
  | append_singleton ds d ih =>
    obtain ⟨front, last⟩ := List.forall_mem_append.mp small
    have less : d < base := last d (List.mem_singleton_self d)
    have quotient : (value base ds * base + d) / base = value base ds := by
      rw [Nat.mul_comm, Nat.mul_add_div (Nat.zero_lt_of_lt less), Nat.div_eq_of_lt less, Nat.add_zero]
    have rest : (value base ds * base + d) % base = d := by
      rw [Nat.mul_comm, Nat.mul_add_mod, Nat.mod_eq_of_lt less]
    rw [List.length_append, List.length_singleton, digits, value_append_singleton, quotient, rest,
      ih front]

@[simp] theorem length_padded (width n : Nat) : (padded width n).length = width := by
  simp [padded]

/-! Decimal digits -/

section
variable {ds : List Nat}

theorem mapM_decimalValue?_digitChar (small : ∀ d ∈ ds, d < 10) :
    (ds.map digitChar).mapM decimalValue? = some ds :=
  mapM_map_eq_some fun d mem => decimalValue?_digitChar d (small d mem)

theorem filterMap_decimalValue?_digitChar (small : ∀ d ∈ ds, d < 10) :
    (ds.map digitChar).filterMap decimalValue? = ds := by
  rw [List.filterMap_map]
  refine (List.filterMap_congr fun d mem => ?_).trans List.filterMap_some
  exact decimalValue?_digitChar d (small d mem)

theorem decimalValue?_of_mem_digitChar (small : ∀ d ∈ ds, d < 10) {c : Char}
    (mem : c ∈ ds.map digitChar) : (decimalValue? c).isSome = true := by
  obtain ⟨d, digit, rfl⟩ := List.mem_map.mp mem
  rw [decimalValue?_digitChar d (small d digit)]
  rfl
end

theorem lt_of_mem_digits_ten {d : Nat} (mem : d ∈ digits 10 width n) : d < 10 :=
  lt_of_mem_digits (by decide) width mem

theorem mapM_decimalValue?_padded (width n : Nat) :
    (padded width n).mapM decimalValue? = some (digits 10 width n) :=
  mapM_decimalValue?_digitChar fun _ => lt_of_mem_digits_ten

theorem decimalValue?_of_mem_padded {c : Char} (mem : c ∈ padded width n) :
    (decimalValue? c).isSome = true :=
  decimalValue?_of_mem_digitChar (fun _ => lt_of_mem_digits_ten) mem

theorem decimal_eq (n : Nat) :
    decimal n = (if n < 10 then [] else decimal (n / 10)) ++ [digitChar (n % 10)] := by
  have char : ∀ d, d < 10 → Nat.digitChar d = digitChar d := by decide
  rw [decimal, Nat.toDigits_eq_if (by decide)]
  split
  · next small => rw [char n small, Nat.mod_eq_of_lt small]; rfl
  · rw [char (n % 10) (Nat.mod_lt n (by decide))]; rfl

/-- A number is written with at least one digit, and without a zero in front of another digit. -/
theorem decimal_digits (n : Nat) : ∃ ds, decimal n = ds.map digitChar ∧ (∀ d ∈ ds, d < 10) ∧
    value 10 ds = n ∧ ds ≠ [] ∧ (ds.head? = some 0 → n = 0 ∧ ds.length = 1) := by
  induction n using Nat.strongRecOn with
  | ind n ih =>
    rw [decimal_eq]
    split
    · next small =>
      refine ⟨[n], by rw [Nat.mod_eq_of_lt small]; rfl, by simpa, by simp [value], by simp, ?_⟩
      simp
    · next large =>
      obtain ⟨ds, written, digits, sum, some, front⟩ := ih (n / 10) (by omega)
      refine ⟨ds ++ [n % 10], by rw [written, List.map_append]; rfl, ?_, ?_, by simp, ?_⟩
      · intro d mem
        rcases List.mem_append.mp mem with mem | mem
        · exact digits d mem
        · rw [List.mem_singleton.mp mem]
          exact Nat.mod_lt n (by decide)
      · rw [value_append_singleton, sum, Nat.mul_comm]
        exact Nat.div_add_mod n 10
      · rw [List.head?_append_of_ne_nil _ some]
        intro zero
        have := (front zero).1
        omega

theorem natural?_decimal (n : Nat) : natural? (decimal n) = some n := by
  obtain ⟨ds, written, digits, sum, some, -⟩ := decimal_digits n
  obtain ⟨d, rest, rfl⟩ := List.exists_cons_of_ne_nil some
  rw [written, List.map_cons, natural?, ← List.map_cons, mapM_decimalValue?_digitChar digits,
    Option.map_some, sum]
  exact List.cons_ne_nil _ _

/-! Reading numbers -/

theorem decimalValue?_eq_some_iff {c : Char} {d : Nat} :
    decimalValue? c = some d ↔ d < 10 ∧ c = digitChar d := by
  constructor
  · intro read
    unfold decimalValue? at read
    split at read
    · next range =>
      have low : 48 ≤ c.toNat := range.1
      have high : c.toNat ≤ 57 := range.2
      obtain rfl := Option.some.inj read
      refine ⟨by omega, ?_⟩
      rw [digitChar, if_pos (by omega), Nat.add_sub_cancel' low, Char.ofNat_toNat]
    · contradiction
  · rintro ⟨small, rfl⟩
    exact decimalValue?_digitChar d small

theorem mapM_decimalValue?_eq_some_iff {cs : List Char} {ds : List Nat} :
    cs.mapM decimalValue? = some ds ↔ (∀ d ∈ ds, d < 10) ∧ cs = ds.map digitChar := by
  have read : cs.mapM decimalValue? = some ds ↔ (∀ d ∈ ds, d < 10) ∧ cs.map id = ds.map digitChar :=
    mapM_eq_some_iff fun _ _ => decimalValue?_eq_some_iff
  rwa [List.map_id] at read

theorem natural?_eq_some_iff {cs : List Char} {n : Nat} : natural? cs = some n ↔
    ∃ ds, ds ≠ [] ∧ (∀ d ∈ ds, d < 10) ∧ value 10 ds = n ∧ cs = ds.map digitChar := by
  cases cs with
  | nil => simp [natural?, eq_comm]
  | cons c rest =>
    rw [natural?, Option.map_eq_some_iff]
    · simp only [mapM_decimalValue?_eq_some_iff]
      constructor
      · rintro ⟨ds, ⟨small, same⟩, sum⟩
        exact ⟨ds, by rintro rfl; contradiction, small, sum, same⟩
      · rintro ⟨ds, -, small, sum, same⟩
        exact ⟨ds, ⟨small, same⟩, sum⟩
    · exact List.cons_ne_nil c rest

/-- A number in decimal digits, a plus sign in front of them or not. -/
def Spells (cs : List Char) (n : Nat) : Prop :=
  ∃ ds, ds ≠ [] ∧ (∀ d ∈ ds, d < 10) ∧ value 10 ds = n ∧
    (cs = ds.map digitChar ∨ cs = '+' :: ds.map digitChar)

theorem unsigned?_eq_some_iff {max : Nat} {cs : List Char} {n : Nat} :
    unsigned? max cs = some n ↔ Spells cs n ∧ n ≤ max := by
  unfold unsigned?
  rw [Option.filter_eq_some_iff, natural?_eq_some_iff, decide_eq_true_eq]
  refine and_congr_left fun _ => exists_congr fun ds => ?_
  refine and_congr_right fun some => and_congr_right fun small => and_congr_right fun _ => ?_
  have unsigned : ds.map digitChar ≠ '+' :: cs.tail := by
    intro same
    have digit := decimalValue?_of_mem_digitChar small (same ▸ List.mem_cons_self)
    contradiction
  split
  · next rest =>
    simp only [List.cons.injEq, true_and]
    exact ⟨.inr, fun read => read.resolve_left fun same => unsigned same.symm⟩
  · next plain =>
    exact ⟨.inl, fun read => read.resolve_right fun same => plain _ same⟩

theorem spells_decimal (n : Nat) : Spells (decimal n) n := by
  obtain ⟨ds, written, small, sum, some, -⟩ := decimal_digits n
  exact ⟨ds, some, small, sum, .inl written⟩

/-- Digits beyond a width are not written. -/
theorem padded_mod (width n : Nat) : padded width (n % 10 ^ width) = padded width n := by
  have same (width : Nat) : ∀ n, digits 10 width (n % 10 ^ width) = digits 10 width n := by
    induction width with
    | zero => exact fun _ => rfl
    | succ w ih =>
      intro n
      have front : n % 10 ^ (w + 1) / 10 = n / 10 % 10 ^ w := by
        rw [Nat.pow_succ, Nat.mul_comm, Nat.mod_mul_right_div_self]
      have last : n % 10 ^ (w + 1) % 10 = n % 10 := by
        rw [Nat.pow_succ]
        exact Nat.mod_mul_left_mod n (10 ^ w) 10
      rw [digits, front, ih, last, digits]
  rw [padded, same, padded]

theorem padded_inj (left : n < Nat.pow 10 width) (right : m < Nat.pow 10 width) :
    padded width n = padded width m ↔ n = m := by
  refine ⟨fun same => ?_, fun same => same ▸ rfl⟩
  have read := congrArg (List.mapM decimalValue?) same
  rw [mapM_decimalValue?_padded, mapM_decimalValue?_padded, Option.some.injEq] at read
  exact (digits_inj left right).mp read

/-- Texts that begin with numbers of one width compare by the numbers first. -/
theorem padded_append_lt (left : n < Nat.pow 10 width) (right : m < Nat.pow 10 width)
    (xs ys : List Char) : padded width n ++ xs < padded width m ++ ys ↔ n < m ∨ n = m ∧ xs < ys := by
  rw [append_lt_append_iff ((length_padded _ _).trans (length_padded _ _).symm),
    padded_inj left right]
  rw [padded, padded, map_digitChar_lt (by decide) (by decide) left right]

end AuditTrail.Positional
