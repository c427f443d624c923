import AuditTrail.Proofs.Embedded.Stored

/-! Every row that requests lead to holds a project or a record, in all of its columns, and the rows of
a record's changes hold its changes in their order. No request leaves a row half written. -/
namespace AuditTrail.Embedded.Content

/-- A row that holds a record, whose changes are stored with it. -/
structure Stores (c : Content) (row : Row) (r : Record) : Prop where
  kept : row.Keeps (r.entries r.project r.createTime)
  changes : (c.entry r.project r.id).2 = changeRows r.project r.id 0 r.resource.changes

/-- Rows hold values. -/
structure Valued (c : Content) : Prop where
  projects : ∀ row ∈ c.projects, ∃ p : Project, row.Keeps p.entries
  records : ∀ row ∈ c.records, ∃ r : Record, c.Stores row r

theorem valued_empty : Content.empty.Valued := ⟨by simp [Content.empty], by simp [Content.empty]⟩

variable {c d : Content} {row : Row} {r : Record} {request : Request}

theorem isProject_eq {p : Project} (kept : row.Keeps p.entries) (id : Id) :
    row.isProject id = decide (p.id = id) := by
  have name : row.get .id = .text p.id.text := kept (.id, .id p.id) (by simp [Project.entries])
  simp [Row.isProject, name]

theorem Stores.id (stores : c.Stores row r) : row.get .id = .text r.id.text :=
  stores.kept (.id, .id r.id) (by simp [Record.entries])

theorem Stores.isRecord (stores : c.Stores row r) : row.isRecord r.project r.id = true := by
  have project : row.get .projectId = .text r.project.text :=
    stores.kept (.projectId, .id r.project) (by simp [Record.entries])
  simp [Row.isRecord, Row.isOf, project, stores.id]

/-- A record is stored as before by a request that does not name its key. -/
theorem Stores.frame (stores : c.Stores row r) (step : Step c request d)
    (other : ¬ names r.project r.id request) : d.Stores row r :=
  ⟨stores.kept, (congrArg Prod.snd (entry_of_not_names step other)).trans stores.changes⟩

theorem entry_replaceChanges (c : Content) (project id : Id) (changes : List Change) :
    ((c.replaceChanges project id changes).entry project id).2 = changeRows project id 0 changes := by
  have old : (c.removeChanges project id).changes.filter (Row.isChange project id) = [] :=
    filter_other_own c.changes
  have new : (changeRows project id 0 changes).filter (Row.isChange project id)
      = changeRows project id 0 changes :=
    List.filter_eq_self.mpr fun _ mem => isChange_of_mem_changeRows mem
  simp only [entry, replaceChanges, List.filter_append, old, new, List.nil_append,
    arrange_changeRows]

/-- An update stores the record with its groups replaced. -/
theorem Stores.assign (stores : c.Stores row r) (u : RecordUpdate) :
    (c.assign r.project r.id u).Stores (row.setAll u.entries) (u.apply r) := by
  refine ⟨Row.keeps_updateRecord u stores.kept, ?_⟩
  cases selected : u.resource with
  | none =>
    have same : (c.assign r.project r.id u).changes = c.changes := by
      simp [Content.assign, selected, assignRecord]
    simp only [RecordUpdate.apply, selected, Option.getD_none, entry, same]
    exact stores.changes
  | some resource =>
    simp only [RecordUpdate.apply, selected, Option.getD_some, Content.assign]
    exact entry_replaceChanges _ _ _ _

/-- Rows that stay hold what they held, as none of their keys is named. -/
theorem Valued.stays (valued : c.Valued) (step : Step c request d) (mem : row ∈ c.records)
    (other : ∀ p i, row.isRecord p i = true → ¬ names p i request) : ∃ r, d.Stores row r := by
  obtain ⟨r, stores⟩ := valued.records row mem
  exact ⟨r, stores.frame step (other _ _ stores.isRecord)⟩

theorem Valued.addBatch (valued : c.Valued) (sound : c.Sound) {first : Record} {rest : List Record}
    {e : Content} (step : Step c (.createRecords (first :: rest)) e)
    (together : ∀ r ∈ first :: rest, r.project = first.project)
    (records : c.addRecords ((first :: rest).map (recordRow first.project first.createTime)) = .ok d)
    (changes : d.addChanges (batchChanges first.project (first :: rest)) = .ok e) : e.Valued := by
  have keys := sound.keyed.addRecords records .records
  rw [(addRecords_eq_ok records).2] at keys
  have fresh := (fresh_of_keyed keys).2
  have rows : e.records
      = c.records ++ (first :: rest).map (recordRow first.project first.createTime) := by
    rw [records_of_addChanges changes, (addRecords_eq_ok records).2]
  refine ⟨step.projects_eq (fun _ => rfl) ▸ valued.projects, fun row mem => ?_⟩
  rw [rows] at mem
  rcases List.mem_append.mp mem with old | new
  · refine valued.stays step old ?_
    rintro p i own ⟨b, batched, project, id⟩
    have unused := fresh row old b batched
    rw [← together b batched, project, id, own] at unused
    contradiction
  · obtain ⟨b, batched, rfl⟩ := List.mem_map.mp new
    refine ⟨{ b with project := first.project, createTime := first.createTime }, ?_, ?_⟩
    · exact Row.keeps_recordRow _ _ b
    · exact congrArg Prod.snd (entry_addBatch sound records changes batched)

theorem Valued.assign (valued : c.Valued) {project id : Id} {u : RecordUpdate}
    (step : Step c (.updateRecord project id u) (c.assign project id u)) :
    (c.assign project id u).Valued := by
  refine ⟨step.projects_eq (fun _ => rfl) ▸ valued.projects, fun row mem => ?_⟩
  rw [records_assign] at mem
  obtain ⟨old, stored, rfl⟩ := List.mem_map.mp mem
  split
  · next own =>
    obtain ⟨r, stores⟩ := valued.records old stored
    obtain ⟨rfl, rfl⟩ := Row.isRecord_unique stores.isRecord own
    exact ⟨_, stores.assign u⟩
  · next other =>
    refine valued.stays step stored fun p i own named => other ?_
    rw [named.1, named.2]
    exact own

theorem Valued.step (valued : c.Valued) (sound : c.Sound) (step : Step c request d) : d.Valued := by
  have made := step
  cases step with
  | createProject absent =>
    refine ⟨fun row mem => ?_, fun row mem => valued.stays made mem fun _ _ _ => id⟩
    rcases List.mem_append.mp mem with mem | mem
    · exact valued.projects row mem
    · rw [List.mem_singleton.mp mem]
      exact ⟨_, Row.keeps_projectRow _ _⟩
  | updateProject present =>
    refine ⟨fun row mem => ?_, fun row mem => valued.stays made mem fun _ _ _ => id⟩
    obtain ⟨old, stored, rfl⟩ := List.mem_map.mp mem
    obtain ⟨p, kept⟩ := valued.projects old stored
    split
    · exact ⟨_, Row.keeps_updateProject _ kept⟩
    · exact ⟨p, kept⟩
  | dropProject present =>
    refine ⟨fun row mem => valued.projects row (List.mem_filter.mp mem).1, fun row mem => ?_⟩
    obtain ⟨mem, other⟩ := List.mem_filter.mp mem
    refine valued.stays made mem fun p i own named => ?_
    rw [named, Row.isOf_of_isRecord own] at other
    contradiction
  | createRecords together present records changes =>
    exact valued.addBatch sound made together records changes
  | updateRecord gate allowed present => exact valued.assign made
  | deleteRecord gate allowed =>
    refine ⟨valued.projects, fun row mem => ?_⟩
    obtain ⟨mem, other⟩ := List.mem_filter.mp mem
    refine valued.stays made mem fun p i own ⟨project, id⟩ => ?_
    rw [project, id, own] at other
    contradiction

theorem Valued.after (valued : c.Valued) (sound : c.Sound) (request : Request) :
    (c.after request).Valued := by
  rcases after_cases c request with same | ⟨-, step⟩
  · rwa [same]
  · exact valued.step sound step

end AuditTrail.Embedded.Content

namespace AuditTrail.Embedded

theorem Reachable.valued {s : Session} (reached : Reachable s) : s.content.Valued :=
  (reached.invariant (P := fun c => c.Sound ∧ c.Valued) ⟨Content.sound_empty, Content.valued_empty⟩
    fun _ request ⟨sound, valued⟩ => ⟨sound.after request, valued.after sound request⟩).2

end AuditTrail.Embedded
