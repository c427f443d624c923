import AuditTrail.Proofs.Embedded.Keys

/-! Which rows a request is about. All other rows of the three tables stay as they are, in their
order, and every row that comes in is one that the request is about. -/
namespace AuditTrail.Embedded

/-- Whether a request is about a row of a table. -/
def touches : Request → Table → Row → Bool
  | .createProject p, .projects, row => row.isProject p.id
  | .updateProject id _, .projects, row => row.isProject id
  | .dropProject id, .projects, row => row.isProject id
  | .dropProject id, .records, row => row.isOf id
  | .dropProject id, .changes, row => row.isOf id
  | .createRecords records, .records, row => records.any fun r => row.isRecord r.project r.id
  | .createRecords records, .changes, row => records.any fun r => row.isChange r.project r.id
  | .updateRecord project id _, .records, row => row.isRecord project id
  | .updateRecord project id _, .changes, row => row.isChange project id
  | .deleteRecord project id, .records, row => row.isRecord project id
  | .deleteRecord project id, .changes, row => row.isChange project id
  | _, _, _ => false

section
variable {p q : Row → Bool} {f : Row → Row} {rows new : List Row}

theorem filter_map_other (kept : ∀ row, p (f row) = p row) :
    (rows.map fun row => if p row then f row else row).filter (!p ·) = rows.filter (!p ·) := by
  induction rows with
  | nil => rfl
  | cons row rest ih =>
    cases own : p row <;> simp [own, kept, ih]

theorem find?_map_own (kept : ∀ row, p (f row) = p row) {row : Row} (found : rows.find? p = some row) :
    (rows.map fun row => if p row then f row else row).find? p = some (f row) := by
  have same : (p ∘ fun row => if p row then f row else row) = p := by
    funext row
    simp only [Function.comp_apply]
    split
    · exact kept row
    · rfl
  rw [List.find?_map, same, found, Option.map_some, if_pos (List.find?_some found)]

theorem filter_append_other (own : ∀ row ∈ new, p row = true) :
    (rows ++ new).filter (!p ·) = rows.filter (!p ·) := by
  have none : new.filter (!p ·) = [] :=
    List.filter_eq_nil_iff.mpr fun row mem => by simp [own row mem]
  rw [List.filter_append, none, List.append_nil]

theorem filter_filter_other : (rows.filter (!p ·)).filter (!p ·) = rows.filter (!p ·) :=
  List.filter_eq_self.mpr fun _ mem => (List.mem_filter.mp mem).2

theorem filter_other_own (rows : List Row) : (rows.filter (!p ·)).filter p = [] := by
  refine List.filter_eq_nil_iff.mpr fun row mem own => ?_
  have other := (List.mem_filter.mp mem).2
  rw [own] at other
  contradiction

theorem any_filter_other (own : ∀ row, q row = true → p row = true) (rows : List Row) :
    (rows.filter (!p ·)).any q = false := by
  refine List.any_eq_false.mpr fun row mem picked => ?_
  have other := (List.mem_filter.mp mem).2
  rw [own row picked] at other
  contradiction

/-- What holds of the rows that stay is what holds of those that are picked among them. -/
theorem filter_of_frame {rows' : List Row} (frame : rows'.filter (!p ·) = rows.filter (!p ·))
    (apart : ∀ row, q row = true → p row = false) : rows'.filter q = rows.filter q := by
  have inside : ∀ row, q row = true → (!p row) = true := fun row picked => by
    rw [apart row picked]
    rfl
  rw [← filter_filter_of_imp rows' inside, frame, filter_filter_of_imp rows inside]
end

namespace Content

variable {c d : Content} {r : Request}

theorem frame_assign (project id : Id) (u : RecordUpdate) (t : Table) :
    ((c.assign project id u).rows t).filter (!touches (.updateRecord project id u) t ·)
      = (c.rows t).filter (!touches (.updateRecord project id u) t ·) := by
  have records : ((c.assignRecord project id u).records).filter (!Row.isRecord project id ·)
      = c.records.filter (!Row.isRecord project id ·) :=
    filter_map_other fun row => Row.isRecord_setAll row u project id
  unfold assign
  cases u.resource with
  | none =>
    cases t with
    | records => exact records
    | projects | changes | version => rfl
  | some resource =>
    cases t with
    | records => exact records
    | changes =>
      refine (filter_append_other fun row mem => ?_).trans filter_filter_other
      exact isChange_of_mem_changeRows mem
    | projects | version => rfl

theorem frame_addBatch {first : Record} {rest : List Record} {e : Content}
    (together : ∀ r ∈ first :: rest, r.project = first.project)
    (records : c.addRecords ((first :: rest).map (recordRow first.project first.createTime)) = .ok d)
    (changes : d.addChanges (batchChanges first.project (first :: rest)) = .ok e) (t : Table) :
    (e.rows t).filter (!touches (.createRecords (first :: rest)) t ·)
      = (c.rows t).filter (!touches (.createRecords (first :: rest)) t ·) := by
  obtain ⟨_, rfl⟩ := addRecords_eq_ok records
  obtain ⟨_, rfl⟩ := addChanges_eq_ok changes
  cases t with
  | records =>
    refine filter_append_other fun row mem => ?_
    obtain ⟨r, batched, rfl⟩ := List.mem_map.mp mem
    refine List.any_eq_true.mpr ⟨r, batched, ?_⟩
    rw [together r batched]
    exact isRecord_recordRow_self _ _ r
  | changes =>
    refine filter_append_other fun row mem => ?_
    obtain ⟨r, batched, own⟩ := exists_of_mem_batchChanges mem
    refine List.any_eq_true.mpr ⟨r, batched, ?_⟩
    rwa [together r batched]
  | projects | version => rfl

/-- The rows that a request is not about stay, and it adds none of them. -/
theorem Step.frame (step : Step c r d) (t : Table) :
    (d.rows t).filter (!touches r t ·) = (c.rows t).filter (!touches r t ·) := by
  cases step with
  | createProject absent =>
    cases t with
    | projects =>
      refine filter_append_other fun row mem => ?_
      rw [List.mem_singleton.mp mem]
      simp [touches, Row.isProject, id_projectRow]
    | records | changes | version => rfl
  | updateProject present =>
    cases t with
    | projects => exact filter_map_other fun row => Row.isProject_setAll row _ _
    | records | changes | version => rfl
  | dropProject present =>
    cases t with
    | projects | records | changes => exact filter_filter_other
    | version => rfl
  | createRecords together present records changes =>
    exact frame_addBatch together records changes t
  | updateRecord gate allowed present => exact frame_assign _ _ _ t
  | deleteRecord gate allowed =>
    cases t with
    | records | changes => exact filter_filter_other
    | projects | version => rfl

/-- Projects stay as they are unless a request is about one. -/
theorem Step.projects_eq (step : Step c r d) (none : ∀ row, touches r .projects row = false) :
    d.projects = c.projects := by
  have all (l : List Row) : l.filter (!touches r .projects ·) = l :=
    List.filter_eq_self.mpr fun row _ => by rw [none row, Bool.not_false]
  have kept := step.frame .projects
  rwa [all, all] at kept

end Content

end AuditTrail.Embedded
