import AuditTrail.Proofs.Embedded.Step
import AuditTrail.Proofs.Time.Written

/-! What the rows that can be read say about what is read, and the columns that decide it. -/
namespace AuditTrail.Embedded.Reader

variable {row a b : Row}

theorem project_congr (same : ∀ column ∈ Column.ofProject, a.get column = b.get column) :
    project a = project b := by
  simp only [Column.ofProject, List.forall_mem_cons] at same
  obtain ⟨id, createTime, displayName, updateRecords, deleteRecords, -⟩ := same
  simp only [project, Reader.id, instant, text, flag, id, createTime, displayName, updateRecords,
    deleteRecords]

theorem operationTime_of_record {r : Record} (done : record row = .ok r) :
    instant Column.ofRecord .operationTime row = .ok r.operation.time := by
  simp only [record, bind_eq_ok] at done
  obtain ⟨_, -, _, -, _, -, _, -, _, -, _, -, _, -, _, -, _, -, _, -, _, read, _, -, _, -, _, -,
    _, -, _, -, _, -, rebuilt⟩ := done
  cases rebuilt
  exact read

/-- A record whose operation lies outside the years that are read again stays unreadable. -/
theorem record_ne_ok {t : Instant} {r : Record} (outside : t.year < 0 ∨ 9999 < t.year)
    (stored : row.get .operationTime = .text t.sortable) : record row ≠ .ok r := by
  intro done
  have read := operationTime_of_record done
  simp only [instant, text, stored, bind, Except.bind] at read
  cases again : t.sortable |> Instant.read with
  | error e => simp [again] at read
  | ok u => exact Instant.read_sortable_ne_ok outside again

end AuditTrail.Embedded.Reader
