import AuditTrail.Trace.Parent

/-! The grammar of the `traceparent` header. Each step that cuts a header is an equation between texts,
so fields come out of a header exactly if they have the right shape and spell it. What makes such fields
valid is then said of the fields alone. -/
namespace AuditTrail.TraceParent

/-- A hexadecimal digit in lower case. -/
def IsHex (c : Char) : Prop :=
  c.isDigit = true ∨ c ∈ ['a', 'b', 'c', 'd', 'e', 'f']

/-- A field of a number of digits. -/
def IsField (width : Nat) (ds : List Char) : Prop :=
  ds.length = width ∧ ∀ c ∈ ds, IsHex c

namespace Fields

/-- The header that has these fields. -/
def text (f : Fields) : List Char :=
  f.version ++ '-' :: (f.trace ++ '-' :: (f.span ++ '-' :: (f.flags ++ f.rest)))

/-- What follows the flags of a header is empty, or further fields on the same line. -/
structure Shaped (f : Fields) : Prop where
  version : IsField 2 f.version
  trace : IsField 32 f.trace
  span : IsField 16 f.span
  flags : IsField 2 f.flags
  rest : f.rest = [] ∨ f.rest.head? = some '-' ∧ '\n' ∉ f.rest

/-- Fields that may stand together. -/
structure Admitted (f : Fields) : Prop where
  version : f.version ≠ ['f', 'f']
  trace : f.trace ≠ List.replicate 32 '0'
  span : f.span ≠ List.replicate 16 '0'
  first : f.version = ['0', '0'] →
    f.rest = [] ∧ f.flags ∈ [['0', '0'], ['0', '1'], ['0', '2']]

end Fields

variable {cs ds rest : List Char} {n : Nat} {f : Fields}

theorem isDigit_iff {c : Char} : isDigit c = true ↔ IsHex c := by
  have same (d : Char) : c = d ↔ c.toNat = d.toNat := Char.toNat_inj.symm
  simp [isDigit, IsHex, Char.isDigit, Char.le_def, UInt32.le_iff_toNat_le, same]
  omega

theorem isField_iff : (ds.length = n && ds.all isDigit) = true ↔ IsField n ds := by
  simp only [IsField, Bool.and_eq_true, decide_eq_true_eq, List.all_eq_true, isDigit_iff]

/-! Cutting a header -/

theorem digits?_eq_some_iff : digits? n cs = some (ds, rest) ↔ cs = ds ++ rest ∧ IsField n ds := by
  constructor
  · intro cut
    rw [digits?] at cut
    split at cut
    · next shape =>
      cases cut
      exact ⟨(List.take_append_drop n cs).symm, isField_iff.mp shape⟩
    · contradiction
  · rintro ⟨rfl, shape⟩
    rw [digits?, List.take_left' shape.1, List.drop_left' shape.1, if_pos (isField_iff.mpr shape)]

theorem hyphen?_eq_some_iff : hyphen? cs = some rest ↔ cs = '-' :: rest := by
  constructor
  · intro cut
    unfold hyphen? at cut
    split at cut
    · exact congrArg _ (Option.some.inj cut)
    · contradiction
  · rintro rfl
    rfl

theorem ends_iff : (rest.isEmpty || (rest.head? = some '-' && !rest.contains '\n')) = true ↔
    rest = [] ∨ rest.head? = some '-' ∧ '\n' ∉ rest := by
  simp [List.isEmpty_iff]

/-- The fields of a header are the only ones that spell it. -/
theorem fields?_eq_some_iff : fields? cs = some f ↔ f.Shaped ∧ cs = f.text := by
  simp only [fields?, Option.bind_eq_bind, Option.bind_eq_some_iff, Prod.exists, digits?_eq_some_iff,
    hyphen?_eq_some_iff]
  constructor
  · rintro ⟨version, _, ⟨rfl, first⟩, _, rfl, trace, _, ⟨rfl, second⟩, _, rfl, span, _, ⟨rfl, third⟩,
      _, rfl, flags, rest, ⟨rfl, fourth⟩, cut⟩
    split at cut
    · next ends =>
      cases cut
      exact ⟨⟨first, second, third, fourth, ends_iff.mp ends⟩, rfl⟩
    · contradiction
  · rintro ⟨shaped, rfl⟩
    refine ⟨f.version, _, ⟨rfl, shaped.version⟩, _, rfl, f.trace, _, ⟨rfl, shaped.trace⟩, _, rfl,
      f.span, _, ⟨rfl, shaped.span⟩, _, rfl, f.flags, f.rest, ⟨rfl, shaped.flags⟩, ?_⟩
    rw [if_pos (ends_iff.mpr shaped.rest)]

/-! Fields that go together -/

theorem isZero_iff (length : ds.length = n) : isZero ds = true ↔ ds = List.replicate n '0' := by
  simp only [isZero, List.all_eq_true, decide_eq_true_eq, List.eq_replicate_iff, length, true_and]

theorem Fields.Shaped.isValid_iff (shaped : f.Shaped) : f.isValid = true ↔ f.Admitted := by
  have version : isZero f.version = true ↔ f.version = ['0', '0'] := isZero_iff shaped.version.1
  simp only [Fields.isValid, Bool.and_eq_true, Bool.or_eq_true, Bool.not_eq_true', ← Bool.not_eq_true,
    version, isZero_iff shaped.trace.1, isZero_iff shaped.span.1, decide_eq_true_eq, ne_eq,
    List.isEmpty_iff]
  constructor
  · rintro ⟨⟨⟨named, traced⟩, spanned⟩, first⟩
    refine ⟨named, traced, spanned, fun zero => ?_⟩
    obtain ⟨whole, flags⟩ := first.resolve_left fun other => other zero
    exact ⟨whole, by simpa [or_assoc] using flags⟩
  · rintro ⟨named, traced, spanned, first⟩
    refine ⟨⟨⟨named, traced⟩, spanned⟩, ?_⟩
    by_cases zero : f.version = ['0', '0']
    · obtain ⟨whole, flags⟩ := first zero
      exact .inr ⟨whole, by simpa [or_assoc] using flags⟩
    · exact .inl zero

/-- The valid headers are those that four fields spell, with what may follow them, if the fields may
stand together. -/
theorem trace_parent_is_its_fields (s : String) :
    isValid s = true ↔ ∃ f : Fields, f.Shaped ∧ f.Admitted ∧ s.toList = f.text := by
  constructor
  · intro valid
    cases cut : fields? s.toList with
    | none =>
      rw [isValid, cut] at valid
      contradiction
    | some f =>
      rw [isValid, cut] at valid
      obtain ⟨shaped, spelled⟩ := fields?_eq_some_iff.mp cut
      exact ⟨f, shaped, shaped.isValid_iff.mp valid, spelled⟩
  · rintro ⟨f, shaped, admitted, spelled⟩
    rw [isValid, fields?_eq_some_iff.mpr ⟨shaped, spelled⟩]
    exact shaped.isValid_iff.mpr admitted

end AuditTrail.TraceParent
