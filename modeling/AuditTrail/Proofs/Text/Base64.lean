import AuditTrail.Proofs.Sequence
import AuditTrail.Text.Base64

/-! Bytes that are written over the alphabet of 64 characters are read back, whatever the size of the
last group. -/
namespace AuditTrail.Base64

/-- The six-bit numbers that bytes are divided into. -/
def sextets : List UInt8 → List Nat
  | [] => []
  | [a] => [a.toNat / 4, a.toNat % 4 * 16]
  | [a, b] => [a.toNat / 4, a.toNat % 4 * 16 + b.toNat / 16, b.toNat % 16 * 4]
  | a :: b :: c :: r =>
    (a.toNat / 4) :: (a.toNat % 4 * 16 + b.toNat / 16) :: (b.toNat % 16 * 4 + c.toNat / 64)
      :: (c.toNat % 64) :: sextets r

theorem encode_eq_map (bytes : List UInt8) : encode bytes = (sextets bytes).map symbol := by
  induction bytes using sextets.induct with
  | case1 | case2 a | case3 a b => rfl
  | case4 a b c r ih => rw [encode, sextets, ih]; rfl

theorem sextets_lt {bytes : List UInt8} : ∀ n ∈ sextets bytes, n < 64 := by
  induction bytes using sextets.induct with
  | case1 => simp [sextets]
  | case2 a =>
    have := a.toNat_lt
    simp only [sextets, List.forall_mem_cons]
    exact ⟨by omega, by omega, by simp⟩
  | case3 a b =>
    have := a.toNat_lt
    have := b.toNat_lt
    simp only [sextets, List.forall_mem_cons]
    exact ⟨by omega, by omega, by omega, by simp⟩
  | case4 a b c r ih =>
    have := a.toNat_lt
    have := b.toNat_lt
    have := c.toNat_lt
    simp only [sextets, List.forall_mem_cons]
    exact ⟨by omega, by omega, by omega, by omega, ih⟩

theorem byte_eq {b : UInt8} {n : Nat} (same : n = b.toNat) : UInt8.ofNat n = b := by
  rw [same]
  exact UInt8.ofNat_toNat

theorem gather?_sextets (bytes : List UInt8) : gather? (sextets bytes) = some bytes := by
  induction bytes using sextets.induct with
  | case1 => rfl
  | case2 a =>
    have := a.toNat_lt
    have first : a.toNat / 4 * 4 + a.toNat % 4 * 16 / 16 = a.toNat := by omega
    rw [sextets, gather?, if_pos (by omega), byte_eq first]
  | case3 a b =>
    have := a.toNat_lt
    have := b.toNat_lt
    have first : a.toNat / 4 * 4 + (a.toNat % 4 * 16 + b.toNat / 16) / 16 = a.toNat := by omega
    have second : (a.toNat % 4 * 16 + b.toNat / 16) % 16 * 16 + b.toNat % 16 * 4 / 4 = b.toNat := by
      omega
    rw [sextets, gather?, if_pos (by omega), byte_eq first, byte_eq second]
  | case4 a b c r ih =>
    have := a.toNat_lt
    have := b.toNat_lt
    have := c.toNat_lt
    have first : a.toNat / 4 * 4 + (a.toNat % 4 * 16 + b.toNat / 16) / 16 = a.toNat := by omega
    have second : (a.toNat % 4 * 16 + b.toNat / 16) % 16 * 16 + (b.toNat % 16 * 4 + c.toNat / 64) / 4
        = b.toNat := by
      omega
    have third : (b.toNat % 16 * 4 + c.toNat / 64) % 4 * 64 + c.toNat % 64 = c.toNat := by omega
    rw [sextets, gather?, ih, Option.map_some, byte_eq first, byte_eq second, byte_eq third]

theorem decode?_encode (bytes : List UInt8) : decode? (encode bytes) = some bytes := by
  have numbers : ((sextets bytes).map symbol).mapM number? = some (sextets bytes) :=
    mapM_map_eq_some fun n mem => number?_symbol n (sextets_lt n mem)
  rw [decode?, encode_eq_map, numbers, Option.bind_some, gather?_sextets]

end AuditTrail.Base64
