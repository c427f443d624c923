import AuditTrail.Id.Spelling
import AuditTrail.Proofs.Id.Text
import AuditTrail.Proofs.Text.Positional

/-! The canonical spelling of an identifier is read back, and spellings are in the order of the
identifiers. -/
namespace AuditTrail.Id

variable {ds es : List Char} {a b id : Id}

@[simp] theorem length_hexDigits (id : Id) : id.hexDigits.length = 32 := by
  simp [hexDigits]

/-! Order -/

theorem hyphenate_lt_hyphenate (left : ds.length = 32) (right : es.length = 32) :
    hyphenate ds < hyphenate es ↔ ds < es := by
  have front : (ds.take 8).length = (es.take 8).length := by simp [left, right]
  have group (n : Nat) : ((ds.drop n).take 4).length = ((es.drop n).take 4).length := by
    simp [left, right]
  conv => rhs; rw [eq_groups ds, eq_groups es]
  simp only [hyphenate, List.append_assoc, List.cons_append, append_lt_append_iff front,
    append_lt_append_iff (group _), List.cons_lt_cons_iff, Char.lt_irrefl, true_and, false_or]

theorem text_lt_text : a.text < b.text ↔ a < b := by
  rw [String.lt_iff, text, text, String.toList_ofList, String.toList_ofList,
    hyphenate_lt_hyphenate (length_hexDigits a) (length_hexDigits b)]
  exact Positional.map_digitChar_lt (by decide) (by decide) a.number_lt_pow b.number_lt_pow

/-! Reading -/

theorem ofHexDigits?_hexDigits (id : Id) : ofHexDigits? id.hexDigits = some id := by
  have digits : id.hexDigits.mapM Positional.hexValue? = some (Positional.digits 16 32 id.number) :=
    mapM_map_eq_some fun d mem =>
      Positional.hexValue?_digitChar d (Positional.lt_of_mem_digits (by decide) 32 mem)
  rw [ofHexDigits?, digits, Option.map_some, Positional.value_digits 32 id.number_lt_pow]
  exact congrArg some (ext_number (Nat.mod_eq_of_lt id.number_lt))

theorem hyphens_append (plain : ∀ c ∈ ds, c ≠ '-') (i : Nat) (rest : List Char) :
    hyphens i (ds ++ '-' :: rest) = (i + ds.length) :: hyphens (i + ds.length + 1) rest := by
  induction ds generalizing i with
  | nil => rfl
  | cons c ds ih =>
    obtain ⟨first, later⟩ := List.forall_mem_cons.mp plain
    rw [List.cons_append, hyphens, if_neg first, ih later, List.length_cons, Nat.add_right_comm i 1]
    rfl

theorem hyphens_eq_nil (plain : ∀ c ∈ ds, c ≠ '-') (i : Nat) : hyphens i ds = [] := by
  induction ds generalizing i with
  | nil => rfl
  | cons c ds ih =>
    obtain ⟨first, later⟩ := List.forall_mem_cons.mp plain
    rw [hyphens, if_neg first, ih later]

theorem firstForeign?_eq_none (own : ∀ c ∈ ds, c = '-' ∨ (Positional.hexValue? c).isSome) (i : Nat) :
    firstForeign? i ds = none := by
  induction ds generalizing i with
  | nil => rfl
  | cons c ds ih =>
    obtain ⟨first, later⟩ := List.forall_mem_cons.mp own
    rw [firstForeign?, if_pos first, ih later]

theorem length_hyphenate (length : ds.length = 32) : (hyphenate ds).length = 36 := by
  simp [hyphenate, length]

theorem hyphens_hyphenate (length : ds.length = 32) (plain : ∀ c ∈ ds, c ≠ '-') :
    hyphens 0 (hyphenate ds) = [8, 13, 18, 23] := by
  have group {n m : Nat} : ∀ c ∈ (ds.drop n).take m, c ≠ '-' :=
    fun c mem => plain c (List.mem_of_mem_drop (List.mem_of_mem_take mem))
  have last : ∀ c ∈ ds.drop 20, c ≠ '-' := fun c mem => plain c (List.mem_of_mem_drop mem)
  simp only [hyphenate, List.append_assoc, List.cons_append,
    hyphens_append fun c mem => plain c (List.mem_of_mem_take mem), hyphens_append group,
    hyphens_eq_nil last, List.length_take, List.length_drop, length]
  rfl

theorem mem_hyphenate {c : Char} (mem : c ∈ hyphenate ds) : c = '-' ∨ c ∈ ds := by
  by_cases hyphen : c = '-'
  · exact .inl hyphen
  · right
    rw [eq_groups ds]
    simpa [hyphenate, hyphen] using mem

theorem size_eq_length {cs : List Char} (narrow : ∀ c ∈ cs, c.utf8Size = 1) :
    Utf8.size cs = cs.length := by
  induction cs with
  | nil => rfl
  | cons c cs ih =>
    obtain ⟨first, rest⟩ := List.forall_mem_cons.mp narrow
    rw [Utf8.size, first, ih rest, List.length_cons, Nat.add_comm]

theorem utf8Size_of_mem_text {c : Char} (mem : c ∈ hyphenate id.hexDigits) : c.utf8Size = 1 := by
  rcases mem_hyphenate mem with rfl | mem
  · rfl
  · obtain ⟨d, digit, rfl⟩ := List.mem_map.mp mem
    have narrow : ∀ d, d < 16 → (Positional.digitChar d).utf8Size = 1 := by decide
    exact narrow d (Positional.lt_of_mem_digits (by decide) 32 digit)

theorem parse_text (id : Id) : parse id.text = .ok id := by
  have length := length_hyphenate id.length_hexDigits
  have plain := ne_hyphen_of_mem_hexDigits id
  have size : Utf8.size (hyphenate id.hexDigits) = 36 :=
    (size_eq_length fun _ => utf8Size_of_mem_text).trans length
  have own : ∀ c ∈ hyphenate id.hexDigits, c = '-' ∨ (Positional.hexValue? c).isSome :=
    fun c mem => (mem_hyphenate mem).imp_right hexValue?_of_mem_hexDigits
  have spelled : isHyphenated (hyphenate id.hexDigits) = true := by
    simp [isHyphenated, length, firstForeign?_eq_none own, hyphens_hyphenate id.length_hexDigits plain]
  rw [parse, text, String.toList_ofList]
  simp only [core?, size, if_true, ofHyphenated, spelled, filter_hyphenate plain,
    ofHexDigits?_hexDigits]

theorem read_text (id : Id) : read id.text = .ok id := by
  rw [read, parse_text]
  rfl

end AuditTrail.Id
