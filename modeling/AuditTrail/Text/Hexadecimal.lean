import AuditTrail.Text.Positional
/-!
Bytes as hexadecimal digits, two for each. Main statement: what is written is read back.
-/
namespace AuditTrail.Hexadecimal

/-- Writes bytes, with lower-case digits. -/
def encode : List UInt8 → List Char
  | [] => []
  | b :: r =>
    Positional.digitChar (b.toNat / 16) :: Positional.digitChar (b.toNat % 16) :: encode r

/-- Reads pairs of digits in either letter case and nothing else. -/
def decode? : List Char → Option (List UInt8)
  | [] => some []
  | [_] => none
  | a :: b :: r => do
    let high ← Positional.hexValue? a
    let low ← Positional.hexValue? b
    let rest ← decode? r
    some (UInt8.ofNat (high * 16 + low) :: rest)

theorem decode?_encode (bs : List UInt8) : decode? (encode bs) = some bs := by
  induction bs with
  | nil => rfl
  | cons b r ih =>
    have hb : b.toNat < 256 := b.toNat_lt
    have high := Positional.hexValue?_digitChar (b.toNat / 16) (by omega)
    have low := Positional.hexValue?_digitChar (b.toNat % 16) (by omega)
    have same : UInt8.ofNat (b.toNat / 16 * 16 + b.toNat % 16) = b := by
      rw [Nat.div_add_mod']; exact UInt8.ofNat_toNat
    simp only [encode, decode?, high, low, ih, same, Option.bind_eq_bind, Option.bind_some]

end AuditTrail.Hexadecimal
