import AuditTrail.Time.Written

/-! What is written of an instant and what can be read again. -/
namespace AuditTrail.Instant

open Positional

variable {t u : Instant}

theorem writeYear_outside {year : Int} (outside : year < 0 ∨ 9999 < year) :
    ∃ sign digits, writeYear year = sign :: digits ∧ decimalValue? sign = none := by
  have signed : ¬ (0 ≤ year ∧ year ≤ 9999) := by omega
  rw [writeYear, if_neg signed]
  refine ⟨_, _, rfl, ?_⟩
  split <;> decide

/-- A year outside 0 to 9999 is written with a sign first, and a sign is refused where the year
should begin. -/
theorem read_sortable_ne_ok (outside : t.year < 0 ∨ 9999 < t.year) : read t.sortable ≠ .ok u := by
  intro done
  obtain ⟨sign, digits, year, mark⟩ := writeYear_outside outside
  have refused : readDigits 4 t.sortable.toList = .error .invalid := by
    rw [Instant.year] at year
    simp only [sortable, writeSeconds, year, String.toList_ofList, List.cons_append]
    rw [readDigits, List.take_succ_cons, List.mapM_cons, mark]
    rfl
  simp only [read, refused] at done
  cases long : require (fixedPlaces ≤ t.sortable.utf8ByteSize) .tooShort with
  | error e => simp [long, bind, Except.bind] at done
  | ok _ => simp [long, bind, Except.bind] at done

end AuditTrail.Instant
