import AuditTrail.Server.Partition
import AuditTrail.Text.Split
import Mathlib.Data.String.Basic

/-! Names of partitions. A number is written without the separator, so what stands after the last
separator of a name is the number, and the table stands before it. Hence the table and the number of a
partition can be told from its name, and no script about one partition is a script about another. -/
namespace AuditTrail

theorem Table.name_injective : Function.Injective Table.name := by
  intro t u same
  cases t <;> cases u <;> first | rfl | exact absurd same (by decide)

namespace Server.Partition

/-! How numbers are written -/

theorem toList_toString (n : Int) :
    (toString n).toList = (if 0 ≤ n then [] else ['-']) ++ Nat.toDigits 10 n.natAbs := by
  rw [Int.toString_eq_repr, Int.repr_eq_if]
  by_cases natural : 0 ≤ n
  · have same : n.toNat = n.natAbs := by omega
    rw [if_pos natural, if_pos natural, Nat.repr_eq_ofList_toDigits, String.toList_ofList, same,
      List.nil_append]
  · have same : (-n).toNat = n.natAbs := by omega
    rw [if_neg natural, if_neg natural, String.toList_append, Nat.repr_eq_ofList_toDigits,
      String.toList_ofList, same]
    simp

theorem isDigit_of_mem_toString {n : Int} {c : Char} (mem : c ∈ (toString n).toList) :
    c = '-' ∨ c.isDigit = true := by
  rw [toList_toString, List.mem_append] at mem
  rcases mem with sign | digit
  · left
    split at sign
    · contradiction
    · exact List.mem_singleton.mp sign
  · right
    exact Nat.isDigit_of_mem_toDigits (by decide) (by decide) digit

theorem not_mem_toString {n : Int} {c : Char} (sign : c ≠ '-') (other : c.isDigit = false) :
    c ∉ (toString n).toList := by
  intro mem
  rcases isDigit_of_mem_toString mem with same | digit
  · exact sign same
  · rw [other] at digit
    contradiction

/-- Numbers are told apart by how they are written. -/
theorem toString_injective {m n : Int} (same : toString m = toString n) : m = n := by
  have magnitude {k l : Nat} (same : Nat.toDigits 10 k = Nat.toDigits 10 l) : k = l := by
    rw [← Nat.ofDigitChars_ten_toDigits (n := k), same, Nat.ofDigitChars_ten_toDigits]
  have unsigned (k l : Nat) : Nat.toDigits 10 k ≠ '-' :: Nat.toDigits 10 l := by
    intro same
    have sign : '-' ∈ Nat.toDigits 10 k := same ▸ List.mem_cons_self
    have digit := Nat.isDigit_of_mem_toDigits (by decide) (by decide) sign
    contradiction
  have written := congrArg String.toList same
  rw [toList_toString, toList_toString] at written
  split at written <;> split at written
  · have := magnitude written
    omega
  · exact absurd written (unsigned _ _)
  · exact absurd written.symm (unsigned _ _)
  · have := magnitude (List.cons.inj written).2
    omega

/-- Texts of characters that take one byte each. -/
theorem utf8ByteSize_ofList {cs : List Char} (narrow : ∀ c ∈ cs, c.utf8Size = 1) :
    (String.ofList cs).utf8ByteSize = cs.length := by
  induction cs with
  | nil => rfl
  | cons c rest ih =>
    obtain ⟨first, others⟩ := List.forall_mem_cons.mp narrow
    rw [String.ofList_cons, String.utf8ByteSize_append, ih others, String.utf8ByteSize_singleton, first,
      List.length_cons, Nat.add_comm]

/-- An integer of 64 bits. -/
def Long (n : Int) : Prop := -9223372036854775808 ≤ n ∧ n < 9223372036854775808

/-- An integer of 64 bits has nineteen digits at most. -/
theorem utf8ByteSize_toString {n : Int} (long : Long n) : (toString n).utf8ByteSize ≤ 20 := by
  obtain ⟨least, most⟩ := long
  have narrow : ∀ c ∈ (toString n).toList, c.utf8Size = 1 := by
    intro c mem
    rcases isDigit_of_mem_toString mem with rfl | digit
    · rfl
    · have narrow : c.val ≤ 127 := by
        rw [Char.isDigit, Bool.and_eq_true, decide_eq_true_eq, decide_eq_true_eq] at digit
        exact UInt32.le_trans digit.2 (by decide)
      exact if_pos narrow
  have digits : (Nat.toDigits 10 n.natAbs).length ≤ 19 :=
    (Nat.length_toDigits_le_iff (by decide) (by decide)).mpr (by omega)
  have sign : (if 0 ≤ n then [] else ['-']).length ≤ 1 := by split <;> decide
  rw [← String.ofList_toList (s := toString n), utf8ByteSize_ofList narrow, toList_toString,
    List.length_append]
  omega

/-! Names -/

/-- The last separator of a name stands before the number. -/
theorem last?_name (p : Partition) : Split.last? '_' p.name.toList
    = some ((p.table ++ "_ppn").toList, (toString p.number).toList) := by
  have cut : p.name.toList = (p.table ++ "_ppn").toList ++ '_' :: (toString p.number).toList := by
    have mark : "_ppn_".toList = "_ppn".toList ++ ['_'] := by decide
    simp only [name, String.toList_append, mark, List.append_assoc, List.singleton_append]
  rw [cut]
  exact Split.last?_append _ (not_mem_toString (by decide) (by decide))

theorem name_injective : Function.Injective name := by
  intro p q same
  have cuts := last?_name p
  rw [same, last?_name q] at cuts
  obtain ⟨tables, numbers⟩ := Prod.mk.inj (Option.some.inj cuts)
  have table : p.table = q.table :=
    (String.append_left_inj "_ppn").mp (String.toList_inj.mp tables.symm)
  have number : p.number = q.number := toString_injective (String.toList_inj.mp numbers.symm)
  cases p
  cases q
  cases table
  cases number
  rfl

/-- No partition has the name of a table that is divided. -/
theorem name_ne_table (p : Partition) {t : Table} (divided : t ∈ Table.partitioned) : p.name ≠ t.name := by
  intro same
  have cut := last?_name p
  rw [same] at cut
  simp only [Table.partitioned, List.mem_cons, List.not_mem_nil, or_false] at divided
  rcases divided with rfl | rfl
  · have whole : Split.last? '_' Table.records.name.toList = none := by decide
    rw [whole] at cut
    contradiction
  · have last : Split.last? '_' Table.changes.name.toList
        = some ("records_resource".toList, "changes".toList) := by decide
    rw [last] at cut
    obtain ⟨-, number⟩ := Prod.mk.inj (Option.some.inj cut)
    have absent : 'c' ∉ (toString p.number).toList := not_mem_toString (by decide) (by decide)
    rw [← number] at absent
    exact absent (by decide)

/-- Servers cut names after 63 bytes. The names of partitions are not cut. -/
theorem utf8ByteSize_name {t : Table} (divided : t ∈ Table.partitioned) {n : Int} (long : Long n) :
    (name ⟨t.name, n⟩).utf8ByteSize ≤ 63 := by
  have number := utf8ByteSize_toString long
  have table : (t.name ++ "_ppn_").utf8ByteSize ≤ 29 := by
    simp only [Table.partitioned, List.mem_cons, List.not_mem_nil, or_false] at divided
    rcases divided with rfl | rfl <;> decide
  have parts : (name ⟨t.name, n⟩).utf8ByteSize
      = (t.name ++ "_ppn_").utf8ByteSize + (toString n).utf8ByteSize := String.utf8ByteSize_append
  omega

/-! Scripts -/

/-- A script that drops a partition says which one. -/
theorem drop_injective : Function.Injective drop := by
  intro p q same
  have front := (String.append_left_inj " CASCADE").mp same
  exact name_injective ((String.append_right_inj "DROP TABLE IF EXISTS ").mp front)

/-- A script that creates a partition drops none. -/
theorem create_ne_drop (p q : Partition) (project : Id) : p.create project ≠ q.drop := by
  intro same
  -- Both scripts begin with a word of their own.
  unfold create drop at same
  rw [← String.toList_inj] at same
  simp only [String.append_assoc] at same
  have right : ("DROP TABLE IF EXISTS " ++ (q.name ++ " CASCADE")).toList
      = "DROP TABLE IF EXISTS ".toList ++ (q.name ++ " CASCADE").toList := String.toList_append
  have first : "CREATE TABLE ".toList = 'C' :: "REATE TABLE ".toList := by decide
  have second : "DROP TABLE IF EXISTS ".toList = 'D' :: "ROP TABLE IF EXISTS ".toList := by decide
  rw [String.toList_append, right, first, second] at same
  exact absurd (List.cons.inj same).1 (by decide)

end Server.Partition

end AuditTrail
