import AuditTrail.Id

/-! The canonical spelling tells identifiers apart: hyphens can be taken out again, and the digits
that remain are those of the number. -/
namespace AuditTrail.Id

theorem number_lt_pow (id : Id) : id.number < Nat.pow 16 32 := id.number_lt

theorem hexValue?_of_mem_hexDigits {id : Id} {c : Char} (mem : c ∈ id.hexDigits) :
    (Positional.hexValue? c).isSome = true := by
  obtain ⟨d, digit, rfl⟩ := List.mem_map.mp mem
  have small := Positional.lt_of_mem_digits (by decide) 32 digit
  rw [Positional.hexValue?_digitChar d small]
  rfl

theorem ne_hyphen_of_mem_hexDigits (id : Id) : ∀ c ∈ id.hexDigits, c ≠ '-' := by
  rintro _ mem rfl
  have digit := hexValue?_of_mem_hexDigits mem
  exact absurd digit (by decide)

/-- The five groups of digits. -/
theorem eq_groups (ds : List Char) : ds = ds.take 8 ++ ((ds.drop 8).take 4 ++ ((ds.drop 12).take 4
    ++ ((ds.drop 16).take 4 ++ ds.drop 20))) := by
  have next : ∀ n, (ds.drop n).take 4 ++ ds.drop (n + 4) = ds.drop n := by
    intro n
    rw [← List.drop_drop, List.take_append_drop]
  rw [next 16, next 12, next 8, List.take_append_drop]

theorem filter_hyphenate {ds : List Char} (digits : ∀ c ∈ ds, c ≠ '-') :
    (hyphenate ds).filter (· ≠ '-') = ds := by
  have keep : ∀ {part : List Char}, (∀ c ∈ part, c ∈ ds) → part.filter (· ≠ '-') = part := by
    intro part sub
    exact List.filter_eq_self.mpr fun c mem => by simpa using digits c (sub c mem)
  have inDrop : ∀ {n m : Nat} {c : Char}, c ∈ (ds.drop n).take m → c ∈ ds :=
    fun mem => List.mem_of_mem_drop (List.mem_of_mem_take mem)
  simp only [hyphenate, List.filter_append, List.filter_cons]
  rw [keep fun _ => List.mem_of_mem_take, keep fun _ => inDrop, keep fun _ => inDrop,
    keep fun _ => inDrop, keep fun _ => List.mem_of_mem_drop]
  conv => rhs; rw [eq_groups ds]
  simp

theorem hexDigits_injective {a b : Id} (same : a.hexDigits = b.hexDigits) : a = b := by
  have read : ∀ id : Id, Positional.value 16 (id.hexDigits.map fun c =>
      (Positional.hexValue? c).getD 0) = id.number := by
    intro id
    have digits : (Positional.digits 16 32 id.number).map
        (fun d => (Positional.hexValue? (Positional.digitChar d)).getD 0)
        = Positional.digits 16 32 id.number := by
      conv => rhs; rw [← List.map_id (Positional.digits 16 32 id.number)]
      refine List.map_congr_left fun d mem => ?_
      rw [Positional.hexValue?_digitChar d (Positional.lt_of_mem_digits (by decide) 32 mem)]
      rfl
    rw [hexDigits, List.map_map, Function.comp_def, digits]
    exact Positional.value_digits 32 id.number_lt_pow
  apply ext_number
  rw [← read a, ← read b, same]

theorem text_injective {a b : Id} (same : a.text = b.text) : a = b := by
  have lists : hyphenate a.hexDigits = hyphenate b.hexDigits := String.ofList_injective same
  apply hexDigits_injective
  rw [← filter_hyphenate (ne_hyphen_of_mem_hexDigits a), lists,
    filter_hyphenate (ne_hyphen_of_mem_hexDigits b)]

@[simp] theorem text_inj {a b : Id} : a.text = b.text ↔ a = b :=
  ⟨text_injective, fun same => same ▸ rfl⟩

end AuditTrail.Id
