import AuditTrail.Proofs.Ledger.Step
import Mathlib.Data.List.Nodup

/-! Ledgers that differ in nothing but the order in which they list their projects and records. No request
can tell them apart: what is found has identifiers of its own, and what is listed is put in order. -/
namespace AuditTrail.Ledger

/-- Ledgers of the same projects and records. -/
structure Same (l m : Ledger) : Prop where
  projects : l.projects.Perm m.projects
  records : l.records.Perm m.records

/-- Results that are the same, up to the order of ledgers. -/
inductive Alike {α : Type} : Except Error (α × Ledger) → Except Error (α × Ledger) → Prop
  | granted {a : α} {l m : Ledger} (same : l.Same m) : Alike (.ok (a, l)) (.ok (a, m))
  | refused {e : Error} : Alike (.error e) (.error e)

theorem Alike.map {α β : Type} {x y : Except Error (α × Ledger)} (alike : Alike x y)
    (f : α × Ledger → β × Ledger) (g : α → β) (only : ∀ p, f p = (g p.1, p.2)) :
    Alike (x.map f) (y.map f) := by
  cases alike with
  | granted same =>
    simp only [Except.map, only]
    exact .granted same
  | refused => exact .refused

variable {l m : Ledger}

theorem Same.refl (l : Ledger) : l.Same l := ⟨.refl _, .refl _⟩

namespace Same

variable (same : l.Same m)
include same

theorem sound (sound : l.Sound) : m.Sound := by
  refine ⟨(same.projects.map _).nodup_iff.mp sound.projects,
    (same.records.map _).nodup_iff.mp sound.records, fun r mem => ?_⟩
  obtain ⟨p, present, own⟩ := sound.owned r (same.records.mem_iff.mpr mem)
  exact ⟨p, same.projects.mem_iff.mp present, own⟩

theorem plain (plain : l.Plain) : m.Plain :=
  ⟨fun p mem => plain.projects p (same.projects.mem_iff.mpr mem),
    fun r mem => plain.records r (same.records.mem_iff.mpr mem)⟩

variable (sound : l.Sound)
include sound

theorem project_eq (id : Id) : l.project id = m.project id := by
  unfold project
  rw [find?_perm same.projects sound.projects id]

theorem record_eq (project id : Id) : l.record project id = m.record project id := by
  unfold record
  rw [find?_perm same.records sound.records (project, id)]

theorem listProjects_eq (limit : Nat) (cursor : ProjectCursor) :
    l.listProjects limit cursor = m.listProjects limit cursor := by
  have ids := sound.projects.sublist (List.filter_sublist (p := cursor.admits).map (·.id))
  unfold listProjects
  rw [Project.places.inOrder_congr (same.projects.filter _) (List.Nodup.of_map _ ids)]
  intro a first b second other
  have apart : a.id.number ≠ b.id.number := fun equal =>
    other (List.inj_on_of_nodup_map ids first second (Id.ext_number equal))
  exact (Nat.lt_or_gt_of_ne apart).symm

/-- The records of a project are told apart by the order of a listing. -/
theorem page_eq (project : Id) (f : RecordFilter) (limit : Nat) (cursor : RecordCursor) :
    l.page project f limit cursor = m.page project f limit cursor := by
  have keys := sound.records.sublist (List.filter_sublist (p := fun r : Record =>
    r.project = project && (f.admits r && cursor.admits r)).map Record.key)
  unfold page
  rw [Record.places.inOrder_congr (same.records.filter _) (List.Nodup.of_map _ keys)]
  intro a first b second other
  have own {r : Record} (mem : r ∈ l.records.filter fun r : Record =>
      r.project = project && (f.admits r && cursor.admits r)) : r.project = project :=
    of_decide_eq_true (Bool.and_eq_true_iff.mp (List.mem_filter.mp mem).2).1
  have apart : a.id.number ≠ b.id.number := fun equal =>
    other (List.inj_on_of_nodup_map keys first second
      (Prod.ext ((own first).trans (own second).symm) (Id.ext_number equal)))
  simp only [Record.precedes_iff]
  omega

/-! Requests -/

omit sound in
theorem setProject (id : Id) (u : ProjectUpdate) : (l.setProject id u).Same (m.setProject id u) :=
  ⟨same.projects.map _, same.records⟩

omit sound in
theorem removeProject (id : Id) : (l.removeProject id).Same (m.removeProject id) :=
  ⟨same.projects.filter _, same.records.filter _⟩

omit sound in
theorem addRecords (createTime : Instant) (batch : List Record) :
    (l.addRecords createTime batch).Same (m.addRecords createTime batch) :=
  ⟨same.projects, same.records.append_right _⟩

omit sound in
theorem setRecord (project id : Id) (u : RecordUpdate) :
    (l.setRecord project id u).Same (m.setRecord project id u) :=
  ⟨same.projects, same.records.map _⟩

omit sound in
theorem removeRecord (project id : Id) : (l.removeRecord project id).Same (m.removeRecord project id) :=
  ⟨same.projects, same.records.filter _⟩

omit sound in
/-- A result that only reads. -/
theorem reads {α : Type} (x : Except Error α) : Alike (x.map (·, l)) (x.map (·, m)) := by
  cases x with
  | error e => exact .refused
  | ok a => exact .granted same

theorem createRecords (records : List Record) :
    Alike ((l.createRecords records).map (Answer.done, ·)) ((m.createRecords records).map (.done, ·)) := by
  cases records with
  | nil => exact .refused
  | cons first rest =>
    rw [Ledger.createRecords, Ledger.createRecords, same.project_eq sound]
    split
    · exact .refused
    · cases m.project first.project with
      | error e => exact .refused
      | ok p =>
        have keys := ((same.records.append_right (first :: rest)).map Record.key).nodup_iff
        simp only [bind, Except.bind, keys]
        split
        · exact .granted (same.addRecords first.createTime (first :: rest))
        · exact .refused

theorem updateRecord (project id : Id) (u : RecordUpdate) :
    Alike (l.updateRecord project id u) (m.updateRecord project id u) := by
  unfold Ledger.updateRecord
  rw [same.project_eq sound, same.record_eq sound]
  split
  · exact .refused
  · cases m.project project with
    | error e => exact .refused
    | ok p =>
      simp only [bind, Except.bind]
      split
      · exact .refused
      · cases m.record project id with
        | error e => exact .refused
        | ok r => exact .granted (same.setRecord project id u)

theorem deleteRecord (project id : Id) :
    Alike ((l.deleteRecord project id).map (Answer.done, ·))
      ((m.deleteRecord project id).map (.done, ·)) := by
  unfold Ledger.deleteRecord
  rw [same.project_eq sound]
  cases m.project project with
  | error e => exact .refused
  | ok p =>
    simp only [bind, Except.bind]
    split
    · exact .refused
    · exact .granted (same.removeRecord project id)

/-- No request can tell ledgers apart that differ in their order. -/
theorem handle (r : Request) : Alike (l.handle r) (m.handle r) := by
  cases r with
  | createProject p =>
    have present : l.projects.any (·.id = p.id) = m.projects.any (·.id = p.id) := same.projects.any_eq
    simp only [Ledger.handle, Ledger.createProject, present]
    split
    · exact .refused
    · exact .granted ⟨same.projects.append_right _, same.records⟩
  | getProject id =>
    have reads := same.reads ((m.project id).map Answer.project)
    rw [map_map, map_map] at reads
    simpa only [Ledger.handle, same.project_eq sound] using reads
  | listProjects limit cursor =>
    simp only [Ledger.handle, same.listProjects_eq sound]
    exact .granted same
  | updateProject id u =>
    simp only [Ledger.handle, Ledger.updateProject, same.project_eq sound]
    split
    · exact .refused
    · cases m.project id with
      | error e => exact .refused
      | ok p => exact .granted (same.setProject id u)
  | dropProject id =>
    simp only [Ledger.handle, Ledger.dropProject, same.project_eq sound]
    cases m.project id with
    | error e => exact .refused
    | ok p => exact .granted (same.removeProject id)
  | createRecords records => exact same.createRecords sound records
  | getRecord project id =>
    have reads := same.reads ((m.getRecord project id).map Answer.record)
    rw [map_map, map_map] at reads
    simpa only [Ledger.handle, Ledger.getRecord, same.project_eq sound, same.record_eq sound] using reads
  | listRecords project f limit cursor =>
    have reads := same.reads ((m.listRecords project f limit cursor).map Answer.records)
    rw [map_map, map_map] at reads
    simpa only [Ledger.handle, Ledger.listRecords, same.project_eq sound, same.page_eq sound] using reads
  | updateRecord project id u =>
    exact (same.updateRecord sound project id u).map _ Answer.record fun _ => rfl
  | deleteRecord project id => exact same.deleteRecord sound project id

theorem reply_eq (r : Request) : l.reply r = m.reply r := by
  have alike := same.handle sound r
  unfold reply
  generalize l.handle r = x at alike ⊢
  generalize m.handle r = y at alike ⊢
  cases alike <;> rfl

theorem after (r : Request) : (l.after r).Same (m.after r) := by
  have alike := same.handle sound r
  unfold Ledger.after
  generalize l.handle r = x at alike ⊢
  generalize m.handle r = y at alike ⊢
  cases alike with
  | granted same => exact same
  | refused => exact same

end Same

end AuditTrail.Ledger
