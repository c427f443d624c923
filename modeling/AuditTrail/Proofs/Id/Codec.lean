import AuditTrail.Id.Codec
import AuditTrail.Proofs.Json.Source

/-! The sixteen bytes of an identifier are read back from a document. -/
namespace AuditTrail.Id

open Json Positional

theorem read?_unsigned {max n : Nat} (small : n ≤ max) :
    (unsigned max).read? (Json.number n).source = some n := by
  have positive : ¬ (n : Int) < 0 := Int.not_lt.mpr (Int.natCast_nonneg n)
  simp only [source, writeNumber, positive, if_false, Int.natAbs_natCast, unsigned,
    natural?_decimal, Option.filter_some, decide_eq_true_eq, small, if_true]

theorem number_lt_bytes (id : Id) : id.number < Nat.pow 256 16 := id.number_lt

theorem ofBytes?_bytes (id : Id) : ofBytes? id.bytes = some id := by
  have small : ∀ b ∈ id.bytes, b < 256 := fun b => lt_of_mem_digits (by decide) 16
  have fits : id.bytes.length = 16 ∧ id.bytes.all (· < 256) = true :=
    ⟨length_digits 256 16 id.number, by simpa using small⟩
  rw [ofBytes?, if_pos fits, bytes, value_digits 16 id.number_lt_bytes]
  exact congrArg some (ext_number (Nat.mod_eq_of_lt id.number_lt))

theorem source_codec (id : Id) : (codec.write id).source =
    .array (id.bytes.map fun (b : Nat) => (Json.number b).source) := by
  simp only [codec, source, sources_eq_map, List.map_map]
  rfl

theorem read?_codec (id : Id) : codec.read? (codec.write id).source = some id := by
  have bytes : (id.bytes.map fun (b : Nat) => (Json.number b).source).mapM (unsigned 255).read?
      = some id.bytes := mapM_map_eq_some fun b mem =>
    read?_unsigned (Nat.le_of_lt_succ (lt_of_mem_digits (by decide) 16 mem))
  have read (items : List Source) :
      codec.read? (.array items) = (items.mapM (unsigned 255).read?).bind ofBytes? := rfl
  rw [source_codec, read, bytes, Option.bind_some, ofBytes?_bytes]

end AuditTrail.Id
