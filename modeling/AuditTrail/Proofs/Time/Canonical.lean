import AuditTrail.Proofs.Time.Sortable
import AuditTrail.Proofs.Time.Written

/-! Instants that are written alike. What is read from the text of an instant is written with the same
text again, so a text that can be read stands for what is read from it. -/
namespace AuditTrail.Instant

open Positional

variable {t u : Instant}

/-- Instants with the same fields are written alike. Of the seconds only two digits count. -/
theorem sortable_congr (date : t.date = u.date) (hour : t.clock.1 = u.clock.1)
    (minute : t.clock.2.1 = u.clock.2.1) (second : t.clock.2.2 % 10 ^ 2 = u.clock.2.2 % 10 ^ 2)
    (fraction : t.fraction = u.fraction) : t.sortable = u.sortable := by
  rw [← String.toList_inj, toList_sortable, toList_sortable, ← padded_mod 2 t.clock.2.2,
    ← padded_mod 2 u.clock.2.2, date, hour, minute, second, fraction]

/-- A time of day is that of a usual second, or of the leap second at the end of a minute. -/
theorem timeOfDay?_eq_some {h m s second extra : Nat} (time : timeOfDay? h m s = some (second, extra)) :
    h < 24 ∧ m < 60 ∧ ((s < 60 ∧ second = h * 3600 + m * 60 + s ∧ extra = 0) ∨
      s = 60 ∧ second = h * 3600 + m * 60 + 59 ∧ extra = 1000000000) := by
  unfold timeOfDay? at time
  split at time
  · contradiction
  · split at time <;> cases time <;> omega

/-- An instant that is made of a date and a time of day shows them. -/
theorem sortable_ofLocal {second extra : Nat}
    (time : timeOfDay? t.clock.1 t.clock.2.1 (t.clock.2.2 % 10 ^ 2) = some (second, extra)) :
    (ofLocal t.date second (extra + t.fraction) 0).sortable = t.sortable := by
  obtain ⟨hour, minute, shown⟩ := timeOfDay?_eq_some time
  have days : t.date.toDays = t.seconds / 86400 := Calendar.Date.toDays_ofDays _
  have small : t.fraction < 1000000000 := Nat.mod_lt _ (by decide)
  have inDay : second < 86400 := by omega
  have seconds : (ofLocal t.date second (extra + t.fraction) 0).seconds
      = t.seconds / 86400 * 86400 + second := by
    rw [ofLocal, days, Int.sub_zero]
  have rest : ((t.seconds / 86400 * 86400 + second) % 86400).toNat = second := by omega
  have parts : (ofLocal t.date second (extra + t.fraction) 0).clock = (second / 3600,
      second % 3600 / 60, second % 60 + (extra + t.fraction) / 1000000000) := by
    unfold clock
    rw [seconds, rest]
    rfl
  have places : (ofLocal t.date second (extra + t.fraction) 0).fraction
      = (extra + t.fraction) % 1000000000 := rfl
  apply sortable_congr
  · have day : (t.seconds / 86400 * 86400 + second) / 86400 = t.seconds / 86400 := by omega
    rw [date, seconds, day, date]
  · rw [parts]
    omega
  · rw [parts]
    change second % 3600 / 60 = t.clock.2.1
    omega
  · rw [parts]
    change (second % 60 + (extra + t.fraction) / 1000000000) % 10 ^ 2 = t.clock.2.2 % 10 ^ 2
    omega
  · rw [places]
    omega

theorem sortable_of_read (done : read t.sortable = .ok u) : u.sortable = t.sortable := by
  have first : 0 ≤ t.year := by
    by_contra early
    exact read_sortable_ne_ok (.inl (by omega)) done
  have last : t.year ≤ 9999 := by
    by_contra late
    exact read_sortable_ne_ok (.inr (by omega)) done
  rw [read_sortable_eq first last] at done
  cases time : timeOfDay? t.clock.1 t.clock.2.1 (t.clock.2.2 % 10 ^ 2) with
  | none =>
    rw [time] at done
    contradiction
  | some found =>
    simp only [time, Except.ok.injEq] at done
    rw [← done]
    exact sortable_ofLocal time

/-- The instant that the text of an instant stands for, if it can be read. It is known by the lemmas below;
nothing should read texts in order to find it. -/
@[irreducible] def canonical (t : Instant) : Instant :=
  (read t.sortable).toOption.getD t

theorem canonical_of_read (done : read t.sortable = .ok u) : t.canonical = u := by
  unfold canonical
  rw [done]
  rfl

theorem canonical_of_error {f : ReadFault} (failed : read t.sortable = .error f) : t.canonical = t := by
  unfold canonical
  rw [failed]
  rfl

theorem sortable_canonical (t : Instant) : t.canonical.sortable = t.sortable := by
  cases done : read t.sortable with
  | ok u =>
    rw [canonical_of_read done]
    exact sortable_of_read done
  | error f => rw [canonical_of_error done]

/-- Instants that clocks can show stand for themselves. -/
theorem Proper.canonical (proper : t.Proper) : t.canonical = t := by
  by_cases within : 0 ≤ t.year ∧ t.year ≤ 9999
  · exact canonical_of_read (read_sortable ⟨proper, within.1, within.2⟩)
  · cases done : read t.sortable with
    | ok u => exact absurd done (read_sortable_ne_ok (by omega))
    | error f => exact canonical_of_error done

end AuditTrail.Instant
