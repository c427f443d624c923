import AuditTrail.Proofs.Embedded.Work

/-! The operations of the embedded store refine those on rows alone: in every session that serves
some rows, an operation answers what the rows decide, and the session serves the resulting rows
afterwards. This is where transactions, prepared statements and references are dealt with once. -/
namespace AuditTrail.Embedded
namespace Work

variable {c : Content}

theorem reads_requireProject (id : Id) : Reads (requireProject id) c (c.requireProject id) := by
  have answer : (chosen (.projectPresence id) c.projects).isEmpty = !c.hasProject id := by
    rw [Selection.projectPresence, chosen_plain _ _ _ rfl]
    rw [List.isEmpty_map]
    cases present : c.hasProject id with
    | false => simpa [Content.hasProject] using present
    | true =>
      obtain ⟨row, mem, own⟩ := List.any_eq_true.mp present
      exact List.isEmpty_eq_false_iff.mpr (List.ne_nil_of_mem
        (List.mem_filter.mpr ⟨mem, (meets_project id).trans own⟩))
  have present : Reads (exists? "Failed to check project" (.select (.projectPresence id))) c
      (.ok (c.hasProject id)) := by
    have taken : (Statement.select (.projectPresence id)).Taken :=
      taken_of_depth .projects 2 rfl rfl (by decide)
    refine (yields_select _ taken).reads fun db => ?_
    rw [← Bool.not_not (c.hasProject id), ← answer]
    exact .pure _
  refine (reads_note _).bind_ok (present.bind_ok ?_)
  unfold Content.requireProject
  cases c.hasProject id with
  | true => exact .pure ()
  | false => exact .throw _

theorem reads_readProject (id : Id) : Reads (readProject id) c (c.readProject id) := by
  have taken : (Statement.select (.project id)).Taken :=
    taken_of_depth .projects 2 rfl rfl (by decide)
  refine (reads_note _).bind_ok ((yields_select _ taken).reads fun db => ?_)
  have select : meets [Condition.project id] = Row.isProject id := funext fun _ => meets_project id
  rw [Selection.project, chosen_plain _ _ _ rfl]
  unfold Content.readProject
  cases found : c.projects.find? (Row.isProject id) with
  | none => exact reads_noRow (g := fun row => row) (select ▸ found) (.throw _)
  | some row =>
    simp only
    rw [← bind_pure (Content.reading _ (Reader.project row))]
    exact reads_firstRow (g := fun row => row) (select ▸ found) fun p => .pure p

theorem reads_readChanges (project : Id) (records : List Id) :
    Reads (readChanges project records) c (c.readChanges project records) := by
  unfold readChanges Content.readChanges
  cases records.isEmpty with
  | true => exact .pure []
  | false =>
    have taken : (Statement.select (.changes project records)).Taken :=
      taken_of_depth .changes 4 rfl rfl (by decide)
    refine (reads_note _).bind_ok ((reads_prepare_taken _ taken).bind_ok ?_)
    exact (yields_step_select _ taken.stored).reads fun db => reads_readAll _ _ _

theorem reads_readRecord (project id : Id) :
    Reads (readRecord project id) c (c.readRecord project id) := by
  have taken : (Statement.select (.record project id)).Taken :=
    taken_of_depth .records 3 rfl rfl (by decide)
  refine (reads_note _).bind_ok ((yields_select _ taken).reads fun db => ?_)
  have select : meets [.ofProject project, .equals .id (.id id)] = Row.isRecord project id :=
    funext fun _ => meets_record project id
  rw [Selection.record, chosen_plain _ _ _ rfl]
  unfold Content.readRecord
  cases found : c.records.find? (Row.isRecord project id) with
  | none => exact reads_noRow (g := fun row => row) (select ▸ found) (.throw _)
  | some row =>
    refine reads_firstRow (g := fun row => row) (select ▸ found) fun r => ?_
    exact (reads_readChanges project [id]).bind fun found _ => .pure _

/-- A record can be read again at the end of a transaction. -/
theorem gives_readRecord (project id : Id) :
    Gives (readRecord project id) c (do let record ← c.readRecord project id; return (record, c)) := by
  have whole := (reads_readRecord (c := c) project id).inside
  cases read : c.readRecord project id <;> rw [read] at whole <;> exact whole

/-- Changes of a record that exists are added one by one. -/
theorem does_insertEach (project record : Id) (changes : List Change) :
    ∀ (n : Nat) (c : Content), c.hasRecord project record = true →
      Does (insertEach project record n changes) c
        (c.addChanges (Content.changeRows project record n changes)) := by
  induction changes with
  | nil =>
    intro n c _
    rw [Content.changeRows, Content.addChanges_nil]
    exact Gives.pure ()
  | cons change rest ih =>
    intro n c present
    rw [Content.changeRows, Content.addChanges_cons]
    have effect (db : Database) (enforced : Bool) (holds : db.Holds c) :=
      Database.run_insertChange enforced holds present n change
    split
    · next clash =>
      simp only [if_pos clash] at effect
      exact (reads_step_error _ effect).gives_error
    · next free =>
      simp only [if_neg free] at effect
      exact (yields_step _ effect).gives fun db => ih (n + 1) _ present

theorem does_insertChanges (project record : Id) (changes : List Change)
    (present : c.hasRecord project record = true) :
    Does (insertChanges project record changes) c
      (c.addChanges (Content.changeRows project record 0 changes)) := by
  cases changes with
  | nil =>
    rw [Content.changeRows, Content.addChanges_nil]
    exact Gives.pure ()
  | cons change rest =>
    refine (reads_note _).gives_ok ((reads_keepPrepared _ (by decide)).gives_ok ?_)
    exact does_insertEach project record (change :: rest) 0 c present

theorem does_insertAllChanges (project : Id) (records : List Record) :
    ∀ c : Content, (∀ r ∈ records, c.hasRecord project r.id = true) →
      Does (insertAllChanges project records) c
        (c.addChanges (Content.batchChanges project records)) := by
  induction records with
  | nil =>
    intro c _
    rw [Content.batchChanges, List.flatMap_nil, Content.addChanges_nil]
    exact Gives.pure ()
  | cons r rest ih =>
    intro c present
    obtain ⟨first, others⟩ := List.forall_mem_cons.mp present
    rw [Content.batchChanges, List.flatMap_cons, Content.addChanges_append]
    refine (does_insertChanges project r.id r.resource.changes first).bind fun d same => ?_
    refine ih d fun x mem => ?_
    rw [Content.hasRecord, Content.records_of_addChanges same]
    exact others x mem

theorem does_insertRecords (project : Id) (createTime : Instant) (records : List Record) :
    ∀ c : Content, c.hasProject project = true →
      Does (insertRecords project createTime records) c
        (c.addRecords (records.map (Content.recordRow project createTime))) := by
  induction records with
  | nil =>
    intro c _
    rw [List.map_nil, Content.addRecords_nil]
    exact Gives.pure ()
  | cons r rest ih =>
    intro c present
    rw [List.map_cons, Content.addRecords_cons]
    have effect (db : Database) (enforced : Bool) (holds : db.Holds c) :=
      Database.run_insertRecord enforced holds present createTime r
    split
    · next clash =>
      simp only [if_pos clash] at effect
      exact (reads_step_error _ effect).gives_error
    · next free =>
      simp only [if_neg free] at effect
      exact (yields_step _ effect).gives fun db => ih _ present

theorem does_deleteChanges (project record : Id) :
    Does (deleteChanges project record) c (.ok (c.removeChanges project record)) := by
  have select : meets [.ofProject project, .equals .recordId (.id record)]
      = Row.isChange project record := funext fun _ => meets_changes project record
  have taken : (Statement.deleteChanges project record).Taken :=
    taken_of_depth .changes 3 rfl rfl (by decide)
  refine (reads_note _).gives_ok ?_
  exact (yields_perform _ taken fun db enforced holds =>
    Database.run_deleteChanges enforced holds select).gives fun db => Gives.pure ()

/-- The end of a deletion, once nothing refers to the rows. -/
theorem does_deleteAll_nil (doing : String) : Does (deleteAll doing []) c (.ok c) :=
  Gives.pure ()

theorem does_deleteAll_cons {doing : String} {st : Statement} {rest : List Statement} {n : Nat}
    {d : Content} {r : Except Error Content} (taken : st.Taken)
    (effect : ∀ (db : Database) (enforced : Bool), db.Holds c →
      ∃ after, db.run enforced st = .ok ⟨after, [], n⟩ ∧ after.Holds d)
    (later : Does (deleteAll doing rest) d r) : Does (deleteAll doing (st :: rest)) c r :=
  (reads_note _).gives_ok ((yields_perform _ taken effect).gives fun _ => later)

end Work

open Work

variable {c : Content}

theorem createProject_settles (p : Project) :
    Settles (createProject p) c ((c.createProject p).map ((), ·)) := by
  refine reads_connect.settles_ok (Gives.transaction _ _ ((reads_note _).gives_ok ?_))
  have taken : (Statement.insertProject p []).Taken := taken_of_depth .projects 0 rfl rfl (by decide)
  have effect (db : Database) (enforced : Bool) (holds : db.Holds c) :=
    Database.run_insertProject enforced holds p
  unfold Content.createProject
  split
  · next present =>
    simp only [if_pos present] at effect
    exact (reads_perform_error _ taken effect).gives_error
  · next absent =>
    simp only [if_neg absent] at effect
    exact (yields_perform _ taken effect).gives fun db => Gives.pure ()

theorem getProject_settles (id : Id) :
    Settles (getProject id) c ((c.readProject id).map (·, c)) :=
  (reads_connect.bind_ok (reads_readProject id)).whole

theorem listProjects_settles (limit : Nat) (cursor : ProjectCursor) :
    Settles (listProjects limit cursor) c ((c.listProjects limit cursor).map (·, c)) := by
  have taken : (Statement.select (.projects limit cursor)).Taken := by
    rcases cursor with ⟨_ | id⟩
    · exact taken_of_depth .projects 0 rfl rfl (by decide)
    · exact taken_of_depth .projects 2 rfl rfl (by decide)
  refine (reads_connect.bind_ok ((reads_note _).bind_ok
    ((reads_prepare_taken _ taken).bind_ok ?_))).whole
  exact (yields_step_select _ taken.stored).reads fun db => reads_readAll _ _ _

theorem updateProject_settles (id : Id) (u : ProjectUpdate) :
    Settles (updateProject id u) c (c.updateProject id u) := by
  unfold updateProject Content.updateProject
  split
  · exact (Reads.throw .nothingToUpdate).whole
  · have taken : (Statement.updateProject id u).Taken :=
      taken_of_depth .projects 2 rfl rfl (by decide)
    refine (reads_note _).settles_ok (reads_connect.settles_ok (Gives.transaction _ _ ?_))
    refine (yields_perform _ taken fun db enforced holds =>
      Database.run_updateProject enforced holds id u).gives fun db => ?_
    cases found : c.projects.find? (Row.isProject id) with
    | none => exact Reads.fails (reads_noRow (g := (Row.setAll · u.entries)) found (.throw _))
    | some row =>
      simp only
      rw [← bind_pure (Content.reading _ (Reader.project (row.setAll u.entries)))]
      exact (reads_firstRow (g := (Row.setAll · u.entries)) found fun p => .pure p).inside

theorem dropProject_settles (id : Id) :
    Settles (dropProject id) c ((c.dropProject id).map ((), ·)) := by
  refine reads_connect.settles_ok (Gives.transaction _ _ ?_)
  refine (reads_requireProject id).does fun _ _ => ?_
  have select : meets [.ofProject id] = Row.isOf id := funext fun _ => meets_ofProject id
  -- First the changes, then the records that they refer to, then the project.
  refine does_deleteAll_cons (d := { c with changes := c.changes.filter (!Row.isOf id ·) })
    (taken_of_depth .changes 2 rfl rfl (by decide))
    (fun db enforced holds => Database.run_deleteChanges enforced holds select) ?_
  refine does_deleteAll_cons (d := { c with
      records := c.records.filter (!Row.isOf id ·), changes := c.changes.filter (!Row.isOf id ·) })
    (taken_of_depth .records 2 rfl rfl (by decide))
    (fun db enforced holds => Database.run_deleteRecords enforced holds select ?_) ?_
  · intro change mem r _ own
    have other : change.isOf id = false := by simpa using (List.mem_filter.mp mem).2
    simp only [Row.isOf, decide_eq_true_eq, decide_eq_false_iff_not] at own other
    simp [refersTo, own, other]
  · refine does_deleteAll_cons (d := c.removeProject id)
      (taken_of_depth .projects 2 rfl rfl (by decide))
      (fun db enforced holds => Database.run_deleteProject enforced holds id fun r mem => ?_)
      (does_deleteAll_nil _)
    simpa using (List.mem_filter.mp mem).2

theorem createRecords_settles (records : List Record) :
    Settles (createRecords records) c ((c.createRecords records).map ((), ·)) := by
  cases records with
  | nil => exact (Reads.throw .emptyBatch).whole
  | cons first rest =>
    unfold createRecords Content.createRecords
    simp only
    split
    · exact (Reads.throw .mixedBatch).whole
    · refine reads_connect.settles_ok (Gives.transaction _ _ ?_)
      refine (reads_requireProject first.project).does fun _ required => ?_
      have present := Content.hasProject_of_requireProject required
      refine (reads_note _).gives_ok ((reads_keepPrepared _ (by decide)).gives_ok ?_)
      refine (does_insertRecords _ _ _ c present).bind fun d same => ?_
      refine does_insertAllChanges _ _ d fun r mem => ?_
      rw [(Content.addRecords_eq_ok same).2]
      exact Content.hasRecord_append mem c.records

theorem getRecord_settles (project id : Id) :
    Settles (getRecord project id) c ((c.getRecord project id).map (·, c)) := by
  refine reads_connect.settles_ok (Gives.transaction _ _ (Reads.inside ?_))
  exact (reads_requireProject project).bind fun _ _ => reads_readRecord project id

theorem listRecords_settles (project : Id) (filter : RecordFilter) (limit : Nat)
    (cursor : RecordCursor) :
    Settles (listRecords project filter limit cursor) c
      ((c.listRecords project filter limit cursor).map (·, c)) := by
  unfold listRecords Content.listRecords
  cases cursor.keyset with
  | error e => exact (Reads.throw e).whole
  | ok key =>
    have stored : (Statement.select (.records project filter limit key)).table ≠ .version :=
      show Table.records ≠ .version by decide
    refine (Reads.pure key).settles_ok ((reads_note _).settles_ok (reads_connect.settles_ok
      (Gives.transaction _ _ (Reads.inside ?_))))
    refine (reads_requireProject project).bind fun _ _ => ?_
    refine (reads_prepare _ stored).bind fun _ _ => ?_
    refine (yields_step_select _ stored).reads fun db => ?_
    refine (reads_readAll _ _ _).bind fun records _ => ?_
    exact (reads_readChanges project _).bind fun found _ => .pure _

theorem updateRecord_settles (project id : Id) (u : RecordUpdate) :
    Settles (updateRecord project id u) c (c.updateRecord project id u) := by
  unfold updateRecord Content.updateRecord
  cases u.isEmpty with
  | true => exact (Reads.throw .nothingToUpdate).whole
  | false =>
    refine reads_connect.settles_ok (Gives.transaction _ _ ?_)
    refine (reads_readProject project).gives fun p _ => ?_
    cases p.allowsUpdate with
    | false => exact Reads.fails (.throw _)
    | true =>
      have taken : (Statement.updateRecord project id u).Taken :=
        taken_of_depth .records 3 rfl rfl (by decide)
      refine (reads_note _).gives_ok ?_
      refine (yields_perform _ taken fun db enforced holds =>
        Database.run_updateRecord enforced holds project id u).gives fun db => ?_
      cases present : c.hasRecord project id with
      | false =>
        rw [if_pos (Content.hasRecord_eq_false_iff.mp present)]
        exact Reads.fails (.throw _)
      | true =>
        rw [if_neg fun none => by simp [Content.hasRecord_eq_false_iff.mpr none] at present]
        rw [← Content.hasRecord_assignRecord c project id u] at present
        unfold Content.assign
        cases u.resource with
        | none => exact gives_readRecord project id
        | some r =>
          have inserted := does_insertChanges (c := (c.assignRecord project id u).removeChanges
            project id) project id r.changes present
          rw [Content.addChanges_removeChanges] at inserted
          exact Gives.bind_ok (does_deleteChanges project id)
            (Gives.bind_ok inserted (gives_readRecord project id))

theorem deleteRecord_settles (project id : Id) :
    Settles (deleteRecord project id) c ((c.deleteRecord project id).map ((), ·)) := by
  refine reads_connect.settles_ok (Gives.transaction _ _ ?_)
  refine (reads_readProject project).does fun p _ => ?_
  cases p.allowsDelete with
  | false => exact Reads.fails (.throw _)
  | true =>
    refine (does_deleteChanges project id).bind (g := fun _ => .ok (c.removeRecord project id))
      fun d same => ?_
    have select : meets [.ofProject project, .equals .id (.id id)] = Row.isRecord project id :=
      funext fun _ => meets_record project id
    rw [← Except.ok.inj same]
    refine does_deleteAll_cons (d := c.removeRecord project id)
      (taken_of_depth .records 3 rfl rfl (by decide))
      (fun db enforced holds => Database.run_deleteRecords enforced holds select ?_)
      (does_deleteAll_nil _)
    intro change mem r _ own
    have other : change.isChange project id = false := by simpa using (List.mem_filter.mp mem).2
    simp only [Row.isRecord, Row.isChange, Row.isOf, Bool.and_eq_true, decide_eq_true_eq] at own other
    simpa [refersTo, own] using other

/-- Every request gets the answer that the rows decide, and changes them as it should. -/
theorem handle_settles (r : Request) : Settles (store.handle r) c (c.handle r) := by
  cases r with
  | createProject p => exact (createProject_settles p).answers fun _ => Answer.done
  | getProject id => exact (getProject_settles id).answers Answer.project
  | listProjects limit cursor => exact (listProjects_settles limit cursor).answers Answer.projects
  | updateProject id u => exact (updateProject_settles id u).map Answer.project
  | dropProject id => exact (dropProject_settles id).answers fun _ => Answer.done
  | createRecords records => exact (createRecords_settles records).answers fun _ => Answer.done
  | getRecord project id => exact (getRecord_settles project id).answers Answer.record
  | listRecords project filter limit cursor =>
    exact (listRecords_settles project filter limit cursor).answers Answer.records
  | updateRecord project id u => exact (updateRecord_settles project id u).map Answer.record
  | deleteRecord project id => exact (deleteRecord_settles project id).answers fun _ => Answer.done

end AuditTrail.Embedded
