import AuditTrail.Proofs.Embedded.Kept
import AuditTrail.Proofs.Embedded.Reachable

/-! The columns of stored rows. Every row of a project or a record has the columns of its table, each once
and in the order in which it was written, and an assignment leaves them in place. So a row is told by what
it holds. -/
namespace AuditTrail.Embedded

namespace Row

variable {a b row : Row} {c : Column} {v : Cell} {entries : List (Column × Value)}

def columns (row : Row) : List Column := row.map (·.1)

theorem columns_set (mem : c ∈ row.columns) : (row.set c v).columns = row.columns := by
  induction row with
  | nil => contradiction
  | cons e rest ih =>
    by_cases own : e.1 = c
    · rw [set, if_pos own]
      exact congrArg (· :: _) own.symm
    · rw [set, if_neg own]
      have later : c ∈ Row.columns rest := (List.mem_cons.mp mem).resolve_left fun same => own same.symm
      exact congrArg (e.1 :: ·) (ih later)

/-- An assignment leaves the columns of a row that has all the columns that are assigned. -/
theorem columns_setAll (within : ∀ c ∈ entries.map (·.1), c ∈ row.columns) :
    (row.setAll entries).columns = row.columns := by
  induction entries generalizing row with
  | nil => rfl
  | cons e rest ih =>
    obtain ⟨first, others⟩ := List.forall_mem_cons.mp within
    have set := columns_set (v := e.2.cell) first
    exact (ih fun c mem => set ▸ others c mem).trans set

theorem mem_columns_of_record {u : RecordUpdate} (mem : c ∈ u.entries.map (·.1)) :
    c ∈ Column.ofRecord := by
  have written := RecordUpdate.writes_of_mem mem
  cases c <;> first | decide | contradiction

end Row

namespace Content

/-- Rows with the columns of their tables. -/
structure Shaped (c : Content) : Prop where
  projects : ∀ row ∈ c.projects, row.columns = Column.ofProject ++ [.partitionNumber]
  records : ∀ row ∈ c.records, row.columns = Column.ofRecord

theorem shaped_empty : Content.empty.Shaped := ⟨by simp [Content.empty], by simp [Content.empty]⟩

variable {c d : Content} {r : Request} {row : Row}

theorem columns_assignProject (u : ProjectUpdate)
    (shape : row.columns = Column.ofProject ++ [.partitionNumber]) :
    (row.setAll u.entries).columns = Column.ofProject ++ [.partitionNumber] := by
  rw [← shape]
  apply Row.columns_setAll
  intro column mem
  rw [shape]
  rcases ProjectUpdate.column_of_mem mem with rfl | rfl | rfl <;> decide

theorem columns_assignRecord (u : RecordUpdate) (shape : row.columns = Column.ofRecord) :
    (row.setAll u.entries).columns = Column.ofRecord := by
  rw [← shape]
  apply Row.columns_setAll
  intro column mem
  rw [shape]
  exact Row.mem_columns_of_record mem

theorem Shaped.step (shaped : c.Shaped) (step : Step c r d) : d.Shaped := by
  cases step with
  | createProject absent =>
    refine ⟨?_, shaped.records⟩
    intro row mem
    rcases List.mem_append.mp mem with old | new
    · exact shaped.projects row old
    · rw [List.mem_singleton.mp new]
      rfl
  | updateProject present =>
    refine ⟨?_, shaped.records⟩
    intro row mem
    obtain ⟨old, stored, rfl⟩ := List.mem_map.mp mem
    split
    · exact columns_assignProject _ (shaped.projects old stored)
    · exact shaped.projects old stored
  | dropProject present =>
    exact ⟨fun row mem => shaped.projects row (List.mem_filter.mp mem).1,
      fun row mem => shaped.records row (List.mem_filter.mp mem).1⟩
  | createRecords together present records changes =>
    obtain ⟨-, rfl⟩ := addRecords_eq_ok records
    obtain ⟨-, rfl⟩ := addChanges_eq_ok changes
    refine ⟨shaped.projects, ?_⟩
    intro row mem
    rcases List.mem_append.mp mem with old | new
    · exact shaped.records row old
    · obtain ⟨b, -, rfl⟩ := List.mem_map.mp new
      rfl
  | @updateRecord project id u p gate allowed present =>
    have rows : (c.assign project id u).projects = c.projects := by
      unfold assign
      split <;> rfl
    refine ⟨rows ▸ shaped.projects, ?_⟩
    intro row mem
    rw [records_assign] at mem
    obtain ⟨old, stored, rfl⟩ := List.mem_map.mp mem
    split
    · exact columns_assignRecord u (shaped.records old stored)
    · exact shaped.records old stored
  | deleteRecord gate allowed =>
    exact ⟨shaped.projects, fun row mem => shaped.records row (List.mem_filter.mp mem).1⟩

theorem Shaped.after (shaped : c.Shaped) (r : Request) : (c.after r).Shaped := by
  rcases after_cases c r with same | ⟨-, step⟩
  · rwa [same]
  · exact shaped.step step

end Content

theorem Reachable.shaped {s : Session} (reached : Reachable s) : s.content.Shaped :=
  reached.invariant Content.shaped_empty fun _ r shaped => shaped.after r

end AuditTrail.Embedded
