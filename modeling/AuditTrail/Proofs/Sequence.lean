import Mathlib.Data.List.Basic

/-! Lists that are written and read element by element, and their order. -/
namespace AuditTrail

variable {α β : Type}

theorem mapM_eq_some_map {read? : α → Option β} {value : α → β} {l : List α}
    (read : ∀ a ∈ l, read? a = some (value a)) : l.mapM read? = some (l.map value) := by
  induction l with
  | nil => rfl
  | cons a l ih =>
    obtain ⟨first, rest⟩ := List.forall_mem_cons.mp read
    simp only [List.map_cons, List.mapM_cons, first, ih rest, Option.pure_def, Option.bind_eq_bind,
      Option.bind_some]

theorem mapM_eq_ok_map {ε : Type} {read : α → Except ε β} {value : α → β} {l : List α}
    (done : ∀ a ∈ l, read a = .ok (value a)) : l.mapM read = .ok (l.map value) := by
  induction l with
  | nil => rfl
  | cons a l ih =>
    obtain ⟨first, rest⟩ := List.forall_mem_cons.mp done
    simp only [List.map_cons, List.mapM_cons, first, ih rest, bind, Except.bind, pure, Except.pure]

/-- What is written element by element is read back element by element. -/
theorem mapM_map_eq_some {write : α → β} {read? : β → Option α} {l : List α}
    (back : ∀ a ∈ l, read? (write a) = some a) : (l.map write).mapM read? = some l := by
  have read : l.mapM (read? ∘ write) = some (l.map id) := mapM_eq_some_map back
  rw [List.mapM_map, read, List.map_id]

/-- Where a read element tells its value up to a normal form of elements, so does a read list. -/
theorem mapM_eq_some_iff {γ : Type} {read? : α → Option β} {fits : β → Prop} {normal : α → γ}
    {write : β → γ} (each : ∀ a b, read? a = some b ↔ fits b ∧ normal a = write b) {l : List α}
    {values : List β} :
    l.mapM read? = some values ↔ (∀ b ∈ values, fits b) ∧ l.map normal = values.map write := by
  induction l generalizing values with
  | nil => cases values <;> simp
  | cons a l ih =>
    rw [List.mapM_cons, Option.bind_eq_bind, Option.bind_eq_some_iff]
    constructor
    · rintro ⟨b, first, rest⟩
      rw [Option.bind_eq_bind, Option.bind_eq_some_iff] at rest
      obtain ⟨others, more, same⟩ := rest
      cases same
      obtain ⟨small, same⟩ := (each a b).mp first
      obtain ⟨smalls, sames⟩ := ih.mp more
      exact ⟨List.forall_mem_cons.mpr ⟨small, smalls⟩, List.cons_eq_cons.mpr ⟨same, sames⟩⟩
    · rintro ⟨small, same⟩
      cases values with
      | nil => contradiction
      | cons b others =>
        obtain ⟨first, rest⟩ := List.forall_mem_cons.mp small
        obtain ⟨head, tail⟩ := List.cons_eq_cons.mp same
        refine ⟨b, (each a b).mpr ⟨first, head⟩, ?_⟩
        rw [ih.mpr ⟨rest, tail⟩]
        rfl

/-- Lists whose first parts have one length compare by those parts first. -/
theorem append_lt_append_iff [LT α] {a b : List α} (length : a.length = b.length) (c d : List α) :
    a ++ c < b ++ d ↔ a < b ∨ a = b ∧ c < d := by
  induction a generalizing b with
  | nil =>
    obtain rfl := List.length_eq_zero_iff.mp length.symm
    simp
  | cons x a ih =>
    cases b with
    | nil => contradiction
    | cons y b =>
      simp only [List.cons_append, List.cons_lt_cons_iff, ih (Nat.succ.inj length), List.cons.injEq]
      tauto

/-- A renaming that keeps the order of elements keeps the order of lists. -/
theorem map_lt_map_iff [LT α] [LT β] {f : α → β} {a b : List α}
    (lt : ∀ x ∈ a, ∀ y ∈ b, f x < f y ↔ x < y) (eq : ∀ x ∈ a, ∀ y ∈ b, f x = f y ↔ x = y) :
    a.map f < b.map f ↔ a < b := by
  induction a generalizing b with
  | nil => cases b <;> simp
  | cons x a ih =>
    cases b with
    | nil => simp
    | cons y b =>
      simp only [List.forall_mem_cons] at lt eq
      obtain ⟨⟨ltHead, -⟩, ltTail⟩ := lt
      obtain ⟨⟨eqHead, -⟩, eqTail⟩ := eq
      have rest := ih (fun x mem => (ltTail x mem).2) fun x mem => (eqTail x mem).2
      simp only [List.map_cons, List.cons_lt_cons_iff, ltHead, eqHead, rest]

end AuditTrail
