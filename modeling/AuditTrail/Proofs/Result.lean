/-! When results that may be errors are values. -/
namespace AuditTrail

variable {ε α β γ : Type}

theorem bind_eq_ok {x : Except ε α} {f : α → Except ε β} {b : β} :
    (x >>= f) = .ok b ↔ ∃ a, x = .ok a ∧ f a = .ok b := by
  constructor
  · intro ok
    cases x with
    | error e => contradiction
    | ok a => exact ⟨a, rfl, ok⟩
  · rintro ⟨a, rfl, ok⟩
    exact ok

theorem map_eq_ok {x : Except ε α} {f : α → β} {b : β} (ok : x.map f = .ok b) :
    ∃ a, x = .ok a ∧ f a = b := by
  cases x with
  | error e => contradiction
  | ok a => exact ⟨a, rfl, Except.ok.inj ok⟩

theorem map_map (x : Except ε α) (f : α → β) (g : β → γ) :
    (x.map f).map g = x.map fun a => g (f a) := by
  cases x <;> rfl

/-- What comes of a list comes of its elements. -/
theorem mem_of_mapM_eq_ok {f : α → Except ε β} {l : List α} {found : List β}
    (ok : l.mapM f = .ok found) {b : β} (mem : b ∈ found) : ∃ a ∈ l, f a = .ok b := by
  induction l generalizing found with
  | nil =>
    cases ok
    contradiction
  | cons a rest ih =>
    rw [List.mapM_cons] at ok
    obtain ⟨first, came, ok⟩ := bind_eq_ok.mp ok
    obtain ⟨others, more, same⟩ := bind_eq_ok.mp ok
    cases same
    rcases List.mem_cons.mp mem with rfl | mem
    · exact ⟨a, List.mem_cons_self, came⟩
    · obtain ⟨x, inside, same⟩ := ih more mem
      exact ⟨x, List.mem_cons_of_mem a inside, same⟩

end AuditTrail
