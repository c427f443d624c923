import AuditTrail.Proofs.Embedded.Content

/-! All that a request can do to the rows of a store. A request that fails or only reads leaves them
alone; every other one makes one of six changes, and has found what it needs for that. -/
namespace AuditTrail.Embedded

namespace Content

/-- A request that has been granted, and the rows after it. -/
inductive Step (c : Content) : Request → Content → Prop
  | createProject {p : Project} (absent : c.hasProject p.id = false) :
      Step c (.createProject p) (c.addProject p)
  | updateProject {id : Id} {u : ProjectUpdate} (present : c.hasProject id = true) :
      Step c (.updateProject id u) (c.assignProject id u)
  | dropProject {id : Id} (present : c.hasProject id = true) :
      Step c (.dropProject id) (c.removeProject id)
  | createRecords {first : Record} {rest : List Record} {d e : Content}
      (together : ∀ r ∈ first :: rest, r.project = first.project)
      (present : c.hasProject first.project = true)
      (records : c.addRecords ((first :: rest).map
        (recordRow first.project first.createTime)) = .ok d)
      (changes : d.addChanges (batchChanges first.project (first :: rest)) = .ok e) :
      Step c (.createRecords (first :: rest)) e
  | updateRecord {project id : Id} {u : RecordUpdate} {p : Project}
      (gate : c.readProject project = .ok p) (allowed : p.allowsUpdate = true)
      (present : c.hasRecord project id = true) :
      Step c (.updateRecord project id u) (c.assign project id u)
  | deleteRecord {project id : Id} {p : Project}
      (gate : c.readProject project = .ok p) (allowed : p.allowsDelete = true) :
      Step c (.deleteRecord project id) (c.removeRecord project id)

variable {c d : Content}

theorem records_assign (c : Content) (project id : Id) (u : RecordUpdate) :
    (c.assign project id u).records = (c.assignRecord project id u).records := by
  unfold assign
  split <;> rfl

theorem step_of_createProject {p : Project} (ok : c.createProject p = .ok d) :
    Step c (.createProject p) d := by
  unfold createProject at ok
  split at ok
  · contradiction
  · next absent =>
    cases ok
    exact .createProject (by simpa using absent)

theorem step_of_createRecords {records : List Record} (ok : c.createRecords records = .ok d) :
    Step c (.createRecords records) d := by
  cases records with
  | nil => contradiction
  | cons first rest =>
    unfold createRecords at ok
    simp only at ok
    split at ok
    · contradiction
    · next together =>
      obtain ⟨_, required, ok⟩ := bind_eq_ok.mp ok
      obtain ⟨e, records, changes⟩ := bind_eq_ok.mp ok
      refine .createRecords ?_ (hasProject_of_requireProject required) records changes
      simpa using together

theorem step_of_updateProject {id : Id} {u : ProjectUpdate} {p : Project}
    (ok : c.updateProject id u = .ok (p, d)) : Step c (.updateProject id u) d := by
  unfold updateProject at ok
  split at ok
  · contradiction
  · split at ok
    · next row found =>
      obtain ⟨q, _, same⟩ := map_eq_ok ok
      cases same
      exact .updateProject (hasProject_iff.mpr ⟨row, found⟩)
    · contradiction

/-- An update that is granted has found the gate open and the record there, and has read the record
again after writing it. -/
theorem updateRecord_eq_ok {project id : Id} {u : RecordUpdate} {r : Record}
    (ok : c.updateRecord project id u = .ok (r, d)) :
    (∃ p, c.readProject project = .ok p ∧ p.allowsUpdate = true) ∧ c.hasRecord project id = true ∧
      d = c.assign project id u ∧ d.readRecord project id = .ok r := by
  unfold updateRecord at ok
  split at ok
  · contradiction
  · obtain ⟨p, gate, ok⟩ := bind_eq_ok.mp ok
    split at ok
    · contradiction
    · next allowed =>
      split at ok
      · contradiction
      · next present =>
        obtain ⟨_, reread, same⟩ := bind_eq_ok.mp ok
        cases same
        exact ⟨⟨p, gate, by simpa using allowed⟩, by simpa using present, rfl, reread⟩

theorem step_of_updateRecord {project id : Id} {u : RecordUpdate} {r : Record}
    (ok : c.updateRecord project id u = .ok (r, d)) : Step c (.updateRecord project id u) d := by
  obtain ⟨⟨p, gate, allowed⟩, present, rfl, -⟩ := updateRecord_eq_ok ok
  exact .updateRecord gate allowed present

theorem step_of_deleteRecord {project id : Id} (ok : c.deleteRecord project id = .ok d) :
    Step c (.deleteRecord project id) d := by
  unfold deleteRecord at ok
  obtain ⟨p, gate, ok⟩ := bind_eq_ok.mp ok
  split at ok
  · contradiction
  · next allowed =>
    cases ok
    exact .deleteRecord gate (by simpa using allowed)

/-- A result comes with the rows unchanged or with a step. -/
theorem step_of_handle {r : Request} {a : Answer} (ok : c.handle r = .ok (a, d)) :
    d = c ∨ Step c r d := by
  cases r with
  | createProject p =>
    obtain ⟨e, ok, same⟩ := map_eq_ok ok
    cases same
    exact .inr (step_of_createProject ok)
  | updateProject id u =>
    obtain ⟨⟨p, e⟩, ok, same⟩ := map_eq_ok ok
    cases same
    exact .inr (step_of_updateProject ok)
  | dropProject id =>
    obtain ⟨e, ok, same⟩ := map_eq_ok ok
    obtain ⟨_, required, dropped⟩ := bind_eq_ok.mp ok
    cases same
    cases dropped
    exact .inr (.dropProject (hasProject_of_requireProject required))
  | createRecords records =>
    obtain ⟨e, ok, same⟩ := map_eq_ok ok
    cases same
    exact .inr (step_of_createRecords ok)
  | updateRecord project id u =>
    obtain ⟨⟨r, e⟩, ok, same⟩ := map_eq_ok ok
    cases same
    exact .inr (step_of_updateRecord ok)
  | deleteRecord project id =>
    obtain ⟨e, ok, same⟩ := map_eq_ok ok
    cases same
    exact .inr (step_of_deleteRecord ok)
  | getProject | listProjects | getRecord | listRecords =>
    obtain ⟨x, _, same⟩ := map_eq_ok ok
    cases same
    exact .inl rfl

/-- A request leaves the rows alone, or it is granted and makes a step. -/
theorem after_cases (c : Content) (r : Request) :
    c.after r = c ∨ (∃ a, c.reply r = .ok a) ∧ Step c r (c.after r) := by
  unfold after reply
  cases handled : c.handle r with
  | error e => exact .inl rfl
  | ok p => exact (step_of_handle handled).imp id fun step => ⟨⟨p.1, rfl⟩, step⟩

end Content

end AuditTrail.Embedded
