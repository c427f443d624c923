import AuditTrail.Proofs.Time.Relaxed

/-! Instants as bounds of a range. A bound may be given in any zone, so that in UTC it may lie a little
before the year 0 or after the year 9999. Its text then begins with a sign, which comes before all
digits: such a bound is the least of all, on whichever side of the years it lies. -/
namespace AuditTrail.Instant

open Positional

variable {t u : Instant}

/-- What is read, a clock can show. -/
theorem proper_of_read {s : String} (read : Instant.read s = .ok t) : t.Proper := by
  unfold Instant.read at read
  obtain ⟨_, -, read⟩ := bind_eq_ok.mp read
  obtain ⟨⟨year, _⟩, -, read⟩ := bind_eq_ok.mp read
  obtain ⟨_, -, read⟩ := bind_eq_ok.mp read
  obtain ⟨⟨month, _⟩, -, read⟩ := bind_eq_ok.mp read
  obtain ⟨_, -, read⟩ := bind_eq_ok.mp read
  obtain ⟨⟨day, _⟩, -, read⟩ := bind_eq_ok.mp read
  obtain ⟨_, -, read⟩ := bind_eq_ok.mp read
  obtain ⟨_, -, read⟩ := bind_eq_ok.mp read
  obtain ⟨⟨h, _⟩, -, read⟩ := bind_eq_ok.mp read
  obtain ⟨_, -, read⟩ := bind_eq_ok.mp read
  obtain ⟨⟨m, _⟩, -, read⟩ := bind_eq_ok.mp read
  obtain ⟨_, -, read⟩ := bind_eq_ok.mp read
  obtain ⟨⟨sec, cs⟩, -, read⟩ := bind_eq_ok.mp read
  -- The reader goes on in one of two ways, according to whether there is a fraction.
  dsimp only at read
  split at read <;> obtain ⟨⟨fraction, rest⟩, fractional, read⟩ := bind_eq_ok.mp read
  case' h_1 => have small := readFraction_lt fractional
  case' h_2 => have small : fraction < 1000000000 := by cases fractional; decide
  all_goals
    dsimp only at read
    split at read
    · contradiction
    · next second extra time =>
      obtain ⟨⟨offset, _⟩, zone, read⟩ := bind_eq_ok.mp read
      obtain ⟨_, -, read⟩ := bind_eq_ok.mp read
      obtain ⟨_, -, read⟩ := bind_eq_ok.mp read
      cases read
      exact proper_ofLocal time small (readZone_minutes zone)

/-- Years come in the order of their instants. -/
theorem lt_of_year_lt (less : t.year < u.year) : t < u := by
  have days : t.seconds / 86400 < u.seconds / 86400 := date_lt_date.mp (.inl less)
  rw [lt_iff]
  omega

/-- A sign comes before all digits. -/
theorem sortable_lt_of_outside (ht : t.Ordinary) (outside : ¬ (0 ≤ u.year ∧ u.year ≤ 9999)) :
    u.sortable < t.sortable := by
  obtain ⟨ds, signed, -⟩ := writeYear_signed outside
  obtain ⟨c, rest, plain, digit⟩ := padded_eq_cons (show 0 < 4 by decide) t.date.year.toNat
  have years : writeYear t.date.year = c :: rest := ht.writeYear.trans plain
  have range := (toNat_of_digit digit).1
  have sign : (if u.date.year < 0 then '-' else '+') < c := by
    split <;> exact Nat.lt_of_lt_of_le (by decide) range
  rw [year] at signed
  rw [String.lt_iff, toList_sortable, toList_sortable, signed, years, List.cons_append,
    List.cons_append, List.cons_lt_cons_iff]
  exact .inl sign

/-- A bound after the last year is before all instants, as far as its text goes. -/
theorem sortable_lt_bound (ht : t.Ordinary) (hu : u.Proper) :
    t.sortable < u.sortable ↔ u.year ≤ 9999 ∧ t < u := by
  by_cases inside : 0 ≤ u.year ∧ u.year ≤ 9999
  · rw [sortable_lt_sortable ht ⟨hu, inside.1, inside.2⟩]
    simp [inside.2]
  · have before := sortable_lt_of_outside ht inside
    refine iff_of_false (String.lt_asymm before) fun ⟨last, less⟩ => ?_
    have first := ht.first
    have earlier : u < t := lt_of_year_lt (by omega)
    exact lt_irrefl t (lt_trans less earlier)

end AuditTrail.Instant
