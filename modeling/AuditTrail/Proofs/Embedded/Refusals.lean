import AuditTrail.Proofs.Embedded.Representation

/-! When requests are refused, and how. Each request has grounds on which it is refused, in the order in
which they count, and they are told by the rows alone. Rows whose times can be read hold what was written
to them, so nothing else goes wrong: a request is granted exactly if none of its grounds holds. -/
namespace AuditTrail

theorem Flag.cell_injective : Function.Injective Flag.cell := by
  intro f g same
  cases f <;> cases g <;> first | rfl | exact absurd same (by decide)

/-- The error of the first ground that holds. -/
def firstGround? : List (Bool × Error) → Option Error
  | [] => none
  | (true, e) :: _ => some e
  | (false, _) :: rest => firstGround? rest

/-- The times that come with a request. -/
def Request.times : Request → List Instant
  | .createProject p => [p.createTime]
  | .createRecords records => records.flatMap fun r => [r.createTime, r.operation.time]
  | .listRecords _ f _ cursor => f.timeFrom.toList ++ f.timeTo.toList ++ cursor.lastTime.toList
  | .updateRecord _ _ u => (u.operation.map (·.time)).toList
  | _ => []

namespace Embedded

/-- Why there is no result. -/
def refusal? {α : Type} : Except Error α → Option Error
  | .ok _ => none
  | .error e => some e

@[simp] theorem refusal?_map {α β : Type} (x : Except Error α) (f : α → β) :
    refusal? (x.map f) = refusal? x := by
  cases x <;> rfl

namespace Content

/-- Whether a project is stored with a switch in a position. -/
def isSet (c : Content) (project : Id) (switch : Column) (position : Flag) : Bool :=
  c.projects.any fun row => row.isProject project && row.get switch = position.cell

/-- The grounds on which a request is refused. The last one of a listing is a limit of the engine. -/
def grounds (c : Content) : Request → List (Bool × Error)
  | .createProject p => [(c.hasProject p.id, .internal StoreKind.embedded.name
      "Failed to insert project: UNIQUE constraint failed: projects.id")]
  | .getProject id => [(!c.hasProject id, .projectNotFound id)]
  | .listProjects _ _ => []
  | .updateProject id u => [(u.isEmpty, .nothingToUpdate), (!c.hasProject id, .projectNotFound id)]
  | .dropProject id => [(!c.hasProject id, .projectNotFound id)]
  | .createRecords [] => [(true, .emptyBatch)]
  | .createRecords (first :: rest) => [
      (rest.any (·.project ≠ first.project), .mixedBatch),
      (!c.hasProject first.project, .projectNotFound first.project),
      ((first :: rest).any (c.hasRecord first.project ·.id) || !((first :: rest).map (·.id)).Nodup,
        .internal StoreKind.embedded.name
          "Failed to insert record: UNIQUE constraint failed: records.project_id, records.id")]
  | .getRecord project id => [(!c.hasProject project, .projectNotFound project),
      (!c.hasRecord project id, .recordNotFound project id)]
  | .listRecords project f _ cursor => [
      (cursor.lastTime.isSome ≠ cursor.lastId.isSome, .invalidCursor cursor.encode),
      (!c.hasProject project, .projectNotFound project),
      (termLimit < f.terms + cursor.terms, .internal StoreKind.embedded.name
        "Failed to prepare query: Expression tree is too large (maximum depth 1000)")]
  | .updateRecord project id u => [(u.isEmpty, .nothingToUpdate),
      (!c.hasProject project, .projectNotFound project),
      (c.isSet project .updateRecords .off, .disabled project "update record"),
      (!c.hasRecord project id, .recordNotFound project id)]
  | .deleteRecord project _ => [(!c.hasProject project, .projectNotFound project),
      (!c.isSet project .deleteRecords .on, .disabled project "delete record")]

/-- Rows that hold projects and records whose times lie in the years 0 to 9999. -/
structure Legible (c : Content) : Prop where
  sound : c.Sound
  projects : ∀ row ∈ c.projects, ∃ p, row.ShowsProject p
  records : ∀ row ∈ c.records, ∃ r, c.Shows row r

theorem Valued.legible {c : Content} (valued : c.Valued) (sound : c.Sound)
    (created : ∀ row ∈ c.projects, row.Dated [.createTime])
    (dated : ∀ row ∈ c.records, row.Dated [.createTime, .operationTime]) : c.Legible := by
  refine ⟨sound, ?_, ?_⟩
  · intro row mem
    obtain ⟨view, shows⟩ := valued.exists_project_view created
    exact ⟨view row, shows row mem⟩
  · intro row mem
    obtain ⟨r, stores⟩ := valued.records row mem
    obtain ⟨r', -, shows⟩ := stores.shows (dated row mem)
    exact ⟨r', shows⟩

variable {c : Content}

/-! Projects and records that are looked for -/

theorem find?_eq_none_of_hasProject {id : Id} (absent : c.hasProject id = false) :
    c.projects.find? (Row.isProject id) = none := by
  rw [List.find?_eq_none]
  exact List.any_eq_false.mp absent

theorem requireProject_eq (id : Id) : c.requireProject id
    = if c.hasProject id then .ok () else .error (.projectNotFound id) := rfl

theorem readProject_absent {id : Id} (absent : c.hasProject id = false) :
    c.readProject id = .error (.projectNotFound id) := by
  rw [readProject, find?_eq_none_of_hasProject absent]

theorem readRecord_absent {project id : Id} (absent : c.hasRecord project id = false) :
    c.readRecord project id = .error (.recordNotFound project id) := by
  have none : c.records.find? (Row.isRecord project id) = none := by
    rw [List.find?_eq_none]
    exact List.any_eq_false.mp absent
  rw [readRecord, none]

namespace Legible

variable (legible : c.Legible)
include legible

/-- A project that is there is read, and its switches are those that are stored. -/
theorem readProject {id : Id} (present : c.hasProject id = true) : ∃ p row,
    c.projects.find? (Row.isProject id) = some row ∧ row.ShowsProject p ∧ c.readProject id = .ok p ∧
      (∀ f, c.isSet id .updateRecords f = decide (p.updateRecords = f)) ∧
      ∀ f, c.isSet id .deleteRecords f = decide (p.deleteRecords = f) := by
  obtain ⟨row, found⟩ := hasProject_iff.mp present
  obtain ⟨p, shows⟩ := legible.projects row (List.mem_of_find?_eq_some found)
  have read := Reader.project_of_keeps shows.kept shows.created
  have switch {column : Column} {flag : Flag} (held : row.get column = flag.cell) (f : Flag) :
      c.isSet id column f = decide (flag = f) := by
    rw [isSet, Bool.eq_iff_iff, List.any_eq_true, decide_eq_true_eq]
    constructor
    · rintro ⟨other, mem, own⟩
      obtain ⟨own, same⟩ := Bool.and_eq_true_iff.mp own
      cases legible.sound.keyed.eq_of_isProject mem (List.mem_of_find?_eq_some found) own
        (List.find?_some found)
      exact Flag.cell_injective (held.symm.trans (of_decide_eq_true same))
    · rintro rfl
      exact ⟨row, List.mem_of_find?_eq_some found,
        Bool.and_eq_true_iff.mpr ⟨List.find?_some found, decide_eq_true held⟩⟩
  refine ⟨p, row, found, shows, ?_, ?_, ?_⟩
  · rw [Content.readProject, found]
    simp only [reading, read]
    rfl
  · exact switch (shows.kept (.updateRecords, .flag p.updateRecords) (by simp [Project.entries]))
  · exact switch (shows.kept (.deleteRecords, .flag p.deleteRecords) (by simp [Project.entries]))

/-- A record that is there is read. -/
theorem readRecord {project id : Id} (present : c.hasRecord project id = true) :
    ∃ r, c.readRecord project id = .ok r := by
  obtain ⟨row, found⟩ := hasRecord_iff.mp present
  have stored := List.mem_of_find?_eq_some found
  obtain ⟨r, shows⟩ := legible.records row stored
  obtain ⟨rfl, rfl⟩ := Row.isRecord_unique shows.stores.isRecord (List.find?_some found)
  exact ⟨_, readRecord_of_entry legible.sound.keyed (shows.entry legible.sound.keyed stored) shows.read⟩

/-! Requests -/

omit legible in
theorem refusal_createProject (p : Project) :
    refusal? (c.createProject p) = firstGround? (c.grounds (.createProject p)) := by
  unfold createProject
  cases present : c.hasProject p.id with
  | true =>
    simp only [grounds, present, if_true]
    rfl
  | false => simp [grounds, present, firstGround?, refusal?]

theorem refusal_getProject (id : Id) :
    refusal? (c.readProject id) = firstGround? (c.grounds (.getProject id)) := by
  cases present : c.hasProject id with
  | false => simp [grounds, present, firstGround?, refusal?, readProject_absent]
  | true =>
    obtain ⟨p, row, -, -, read, -⟩ := legible.readProject present
    simp [grounds, present, firstGround?, refusal?, read]

theorem refusal_listProjects (limit : Nat) (cursor : ProjectCursor) :
    refusal? (c.listProjects limit cursor) = none := by
  choose! view shows using legible.projects
  obtain ⟨p, answered, -⟩ := map_eq_ok (reply_listProjects shows limit cursor)
  obtain ⟨page, listed, -⟩ := map_eq_ok answered
  rw [listed]
  rfl

theorem refusal_updateProject (id : Id) (u : ProjectUpdate) :
    refusal? (c.updateProject id u) = firstGround? (c.grounds (.updateProject id u)) := by
  unfold updateProject
  cases empty : u.isEmpty with
  | true => simp [grounds, empty, firstGround?, refusal?]
  | false =>
    cases present : c.hasProject id with
    | false => simp [grounds, empty, present, firstGround?, refusal?, find?_eq_none_of_hasProject]
    | true =>
      obtain ⟨p, row, found, shows, -⟩ := legible.readProject present
      have read := Reader.project_of_keeps (Row.keeps_updateProject u shows.kept) shows.created
      simp [grounds, empty, present, found, firstGround?, refusal?, reading, read, Except.mapError,
        Except.map]

omit legible in
theorem refusal_dropProject (id : Id) :
    refusal? (c.dropProject id) = firstGround? (c.grounds (.dropProject id)) := by
  unfold dropProject
  rw [requireProject_eq]
  cases present : c.hasProject id <;>
    simp [grounds, present, firstGround?, refusal?, bind, Except.bind, pure, Except.pure]

theorem refusal_getRecord (project id : Id) :
    refusal? (c.getRecord project id) = firstGround? (c.grounds (.getRecord project id)) := by
  unfold getRecord
  rw [requireProject_eq]
  cases there : c.hasProject project with
  | false => simp [grounds, there, firstGround?, refusal?, bind, Except.bind]
  | true =>
    cases present : c.hasRecord project id with
    | false =>
      simp [grounds, there, present, firstGround?, refusal?, bind, Except.bind, readRecord_absent]
    | true =>
      obtain ⟨r, read⟩ := legible.readRecord present
      simp [grounds, there, present, firstGround?, refusal?, bind, Except.bind, read]

theorem refusal_listRecords {project : Id} {f : RecordFilter} {limit : Nat} {cursor : RecordCursor}
    (first : ∀ t ∈ f.timeFrom, t.Ordinary) (last : ∀ t ∈ f.timeTo, t.Ordinary)
    (dated : ∀ t ∈ cursor.lastTime, t.Ordinary) : refusal? (c.listRecords project f limit cursor)
      = firstGround? (c.grounds (.listRecords project f limit cursor)) := by
  by_cases complete : cursor.lastTime.isSome = cursor.lastId.isSome
  · have whole : cursor.isComplete = true := decide_eq_true complete
    cases there : c.hasProject project with
    | false =>
      obtain ⟨key, keyset⟩ := RecordCursor.keyset_of_complete whole
      simp [Content.listRecords, requireProject_eq, grounds, complete, there, firstGround?, refusal?, keyset,
        bind, Except.bind]
    | true =>
      obtain ⟨view, views⟩ : ∃ view, c.Views project view := by
        choose! view shows using legible.records
        refine ⟨view, ?_⟩
        intro row mem
        obtain ⟨stored, own⟩ := mem_listed.mp mem
        have shown := shows row stored
        exact ⟨Row.isOf_unique (Row.isOf_of_isRecord shown.stores.isRecord) own, shown⟩
      by_cases fits : f.terms + cursor.terms ≤ termLimit
      · rw [views.listRecords first last dated legible.sound.keyed there limit whole fits]
        simp [grounds, complete, there, Nat.not_lt.mpr fits, firstGround?, refusal?]
      · obtain ⟨key, keyset⟩ := RecordCursor.keyset_of_complete whole
        have many := Nat.not_le.mp fits
        rw [listRecords_refused there keyset many limit]
        simp only [grounds, complete, there, many, ne_eq, not_true, decide_false, decide_true, Bool.not_true]
        rfl
  · have half := RecordCursor.keyset_of_half (decide_eq_false complete)
    simp [Content.listRecords, grounds, complete, firstGround?, refusal?, half, bind, Except.bind]

/-- A record is read after it was changed to times that can be read. -/
theorem readRecord_assign {project id : Id} {u : RecordUpdate} (present : c.hasRecord project id = true)
    (operated : ∀ o ∈ u.operation, o.time.Ordinary) :
    ∃ r, (c.assign project id u).readRecord project id = .ok r := by
  obtain ⟨row, found⟩ := hasRecord_iff.mp present
  obtain ⟨r, shows⟩ := legible.records row (List.mem_of_find?_eq_some found)
  obtain ⟨rfl, rfl⟩ := Row.isRecord_unique shows.stores.isRecord (List.find?_some found)
  have stores := shows.stores.assign u
  have time : (u.apply r).operation.time.Ordinary := by
    simp only [RecordUpdate.apply]
    cases selected : u.operation with
    | none => exact shows.operated
    | some o => exact operated o selected
  have entry : (c.assign r.project r.id u).entry r.project r.id
      = (some (row.setAll u.entries), changeRows r.project r.id 0 (u.apply r).resource.changes) :=
    Prod.ext (find?_assign found) stores.changes
  exact ⟨_, readRecord_of_entry (legible.sound.keyed.assign _ _ u) entry
    (Reader.record_of_keeps stores.kept shows.created time)⟩

theorem refusal_updateRecord {project id : Id} {u : RecordUpdate}
    (operated : ∀ o ∈ u.operation, o.time.Ordinary) :
    refusal? (c.updateRecord project id u) = firstGround? (c.grounds (.updateRecord project id u)) := by
  unfold updateRecord
  cases empty : u.isEmpty with
  | true => simp [grounds, empty, firstGround?, refusal?]
  | false =>
    cases there : c.hasProject project with
    | false =>
      simp [grounds, empty, there, firstGround?, refusal?, readProject_absent, bind, Except.bind]
    | true =>
      obtain ⟨p, row, -, -, read, update, -⟩ := legible.readProject there
      have gate : p.allowsUpdate = !c.isSet project .updateRecords .off := by
        rw [update]
        rfl
      cases closed : c.isSet project .updateRecords .off with
      | true =>
        simp [grounds, empty, there, closed, gate, firstGround?, refusal?, read, bind, Except.bind]
      | false =>
        cases present : c.hasRecord project id with
        | false =>
          simp [grounds, empty, there, closed, gate, present, firstGround?, refusal?, read, bind,
            Except.bind]
        | true =>
          obtain ⟨r, reread⟩ := legible.readRecord_assign present operated
          simp [grounds, empty, there, closed, gate, present, firstGround?, refusal?, read, reread, bind,
            Except.bind, pure, Except.pure]

theorem refusal_deleteRecord (project id : Id) :
    refusal? (c.deleteRecord project id) = firstGround? (c.grounds (.deleteRecord project id)) := by
  unfold deleteRecord
  cases there : c.hasProject project with
  | false => simp [grounds, there, firstGround?, refusal?, readProject_absent, bind, Except.bind]
  | true =>
    obtain ⟨p, row, -, -, read, -, delete⟩ := legible.readProject there
    have gate : p.allowsDelete = c.isSet project .deleteRecords .on := by
      rw [delete]
      rfl
    cases opened : c.isSet project .deleteRecords .on <;>
      simp [grounds, there, opened, gate, firstGround?, refusal?, read, bind, Except.bind, pure,
        Except.pure]

end Legible

theorem refusal_createRecords (sound : c.Sound) (records : List Record) :
    refusal? (c.createRecords records) = firstGround? (c.grounds (.createRecords records)) := by
  cases records with
  | nil => rfl
  | cons first rest =>
    unfold createRecords
    have apart : (first :: rest).any (·.project ≠ first.project) = rest.any (·.project ≠ first.project) := by
      simp
    simp only [apart]
    cases mixed : rest.any (·.project ≠ first.project) with
    | true =>
      simp only [grounds, mixed]
      rfl
    | false =>
      rw [requireProject_eq]
      cases there : c.hasProject first.project with
      | false =>
        simp only [grounds, mixed, there]
        rfl
      | true =>
        have admitted := c.admits_batch first.project first.createTime (first :: rest)
        cases repeated : (first :: rest).any (c.hasRecord first.project ·.id) ||
            !((first :: rest).map (·.id)).Nodup with
        | true =>
          rw [repeated] at admitted
          have refused : c.addRecords ((first :: rest).map
              (recordRow first.project first.createTime)) = .error (.internal StoreKind.embedded.name
                "Failed to insert record: UNIQUE constraint failed: records.project_id, records.id") := by
            rw [addRecords, extend, admitted]
            rfl
          simp only [grounds, mixed, there, repeated, refused]
          rfl
        | false =>
          rw [repeated] at admitted
          obtain ⟨d, e, rows, changes⟩ := exists_addChanges sound admitted
          simp only [grounds, mixed, there, repeated, rows]
          change refusal? (d.addChanges _) = none
          rw [changes]
          rfl

/-- Rows that hold values with times that can be read refuse requests just on their grounds. -/
theorem Legible.refusal (legible : c.Legible) {r : Request} (times : ∀ t ∈ r.times, t.Ordinary) :
    refusal? (c.reply r) = firstGround? (c.grounds r) := by
  rw [reply, refusal?_map]
  cases r <;> rw [handle, refusal?_map]
  case createProject p => exact refusal_createProject p
  case getProject id => exact legible.refusal_getProject id
  case listProjects limit cursor => exact legible.refusal_listProjects limit cursor
  case updateProject id u => exact legible.refusal_updateProject id u
  case dropProject id => exact refusal_dropProject id
  case createRecords records => exact refusal_createRecords legible.sound records
  case getRecord project id => exact legible.refusal_getRecord project id
  case listRecords project f limit cursor =>
    simp only [Request.times, List.mem_append, Option.mem_toList] at times
    exact legible.refusal_listRecords (fun t some => times t (.inl (.inl some)))
      (fun t some => times t (.inl (.inr some))) fun t some => times t (.inr some)
  case updateRecord project id u =>
    apply legible.refusal_updateRecord
    intro o selected
    exact times o.time (Option.mem_toList.mpr (Option.map_eq_some_iff.mpr ⟨o, selected, rfl⟩))
  case deleteRecord project id => exact legible.refusal_deleteRecord project id

end Content

/-- A store whose times lie in the years 0 to 9999 refuses a request with such times on the first of its
grounds that holds, and grants it if none does. -/
theorem refusals_have_grounds {s : Session} (reached : Reachable s)
    (created : ∀ row ∈ s.content.projects, row.Dated [.createTime])
    (dated : ∀ row ∈ s.content.records, row.Dated [.createTime, .operationTime])
    {r : Request} (times : ∀ t ∈ r.times, t.Ordinary) :
    refusal? (s.reply r) = firstGround? (s.content.grounds r) := by
  rw [reached.serves.reply]
  exact (reached.valued.legible reached.sound created dated).refusal times

/-- A record of a project that is open for updates and not open for deletions. -/
theorem refusals_have_grounds_not_deleted :
    let s := ((Session.opened .default).after (.createProject default)).after (.createRecords [default])
    (∀ row ∈ s.content.projects, row.Dated [.createTime]) ∧
    (∀ row ∈ s.content.records, row.Dated [.createTime, .operationTime]) ∧
    refusal? (s.reply (.deleteRecord default default)) = some (.disabled default "delete record") ∧
    refusal? (s.reply (.updateRecord default default { (default : RecordUpdate) with
      operation := some (default : Record).operation })) = none := by
  intro s
  have reached : Reachable s :=
    .answered _ (.answered _ (.opened true (openStore_empty .default)))
  have created : ∀ row ∈ s.content.projects, row.Dated [.createTime] := by
    have rows : s.content.projects = [Content.projectRow default 1] := by decide +kernel
    rw [rows]
    exact List.forall_mem_singleton.mpr (Content.dated_projectRow (by decide) 1)
  have dated : ∀ row ∈ s.content.records, row.Dated [.createTime, .operationTime] := by
    have rows : s.content.records = [Content.recordRow default (default : Record).createTime default] := by
      decide +kernel
    rw [rows]
    exact List.forall_mem_singleton.mpr (Content.dated_recordRow (by decide) (by decide))
  refine ⟨created, dated, ?_, ?_⟩
  · rw [refusals_have_grounds reached created dated (by decide)]
    decide +kernel
  · rw [refusals_have_grounds reached created dated (by decide)]
    decide +kernel

end Embedded

end AuditTrail
