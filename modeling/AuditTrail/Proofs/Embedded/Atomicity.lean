import AuditTrail.Proofs.Embedded.Reading
import AuditTrail.Proofs.Embedded.Soundness

/-! A request that fails leaves the database as it was, and so does a request that only reads. This
holds in every session: whoever holds the database, whatever tables it has, and at whatever statement
of a transaction the failure comes. -/
namespace AuditTrail

/-- Whether a request only reads. -/
def Request.reads : Request → Bool
  | .getProject _ | .listProjects _ _ | .getRecord _ _ | .listRecords _ _ _ _ => true
  | _ => false

namespace Embedded
namespace Work

variable {α β : Type} {w : Work α} {f : α → Work β}

def Quiet (w : Work α) : Prop := ∀ s, (w.run s).2.file = s.file

def Undone (w : Work α) : Prop := ∀ s e t, w.run s = (.error e, t) → t.file = s.file

theorem Quiet.pure (a : α) : Quiet (pure a) := fun _ => rfl

theorem Quiet.throw (e : Error) : Quiet (throw e : Work α) := fun _ => rfl

theorem Quiet.bind (first : Quiet w) (next : ∀ a, Quiet (f a)) : Quiet (w >>= f) := by
  intro s
  have kept := first s
  cases ran : w.run s with
  | mk result t =>
    rw [ran] at kept
    cases result with
    | error e => rwa [run_bind_error ran]
    | ok a => rw [run_bind_ok ran, next a t, kept]

theorem Quiet.undone (quiet : Quiet w) : Undone w := by
  intro s e t ran
  have kept := quiet s
  rwa [ran] at kept

theorem Quiet.undone_bind (first : Quiet w) (next : ∀ a, Undone (f a)) : Undone (w >>= f) := by
  intro s e t ran
  have kept := first s
  cases done : w.run s with
  | mk result u =>
    rw [done] at kept
    cases result with
    | error e' =>
      rw [run_bind_error done] at ran
      obtain ⟨_, rfl⟩ := Prod.mk.inj ran
      exact kept
    | ok a =>
      rw [run_bind_ok done] at ran
      rw [next a u e t ran, kept]

theorem Undone.map (undone : Undone w) (g : α → β) : Undone (do let a ← w; return g a) := by
  intro s e t ran
  cases done : w.run s with
  | mk result u =>
    cases result with
    | ok a =>
      rw [run_bind_ok done] at ran
      have impossible := (Prod.mk.inj ran).1
      contradiction
    | error e' =>
      rw [run_bind_error done] at ran
      obtain ⟨_, rfl⟩ := Prod.mk.inj ran
      exact undone s e' u done

theorem begin?_file {mode : Mode} {s t : Session} (begun : begin? mode s = .ok t) :
    t.file = s.file := by
  cases mode with
  | read =>
    cases begun
    rfl
  | write =>
    unfold begin? at begun
    cases writable : s.writable with
    | error e => rw [writable] at begun; contradiction
    | ok db =>
      rw [writable] at begun
      cases begun
      rfl

/-- Whatever has been done inside, a transaction that fails has been rolled back, also when it is
only its end that fails. -/
theorem undone_transaction (mode : Mode) (doing : String) (w : Work α) :
    Undone (transaction mode doing w) := by
  intro s e t ran
  simp only [Work.run, transaction, ExceptT.run, ExceptT.mk, StateT.run] at ran
  split at ran
  · obtain ⟨_, rfl⟩ := Prod.mk.inj ran
    rfl
  · split at ran
    · obtain ⟨_, rfl⟩ := Prod.mk.inj ran
      rfl
    · split at ran
      · obtain ⟨_, rfl⟩ := Prod.mk.inj ran
        rfl
      · have impossible := (Prod.mk.inj ran).1
        contradiction

theorem quiet_transaction (mode : Mode) (doing : String) (quiet : Quiet w) :
    Quiet (transaction mode doing w) := by
  intro s
  simp only [Work.run, transaction, ExceptT.run, ExceptT.mk, StateT.run]
  split
  · rfl
  · next begun =>
    have kept := (quiet _).trans (begin?_file begun)
    simp only [Work.run, ExceptT.run, StateT.run] at kept
    split
    · rfl
    · next ran =>
      rw [ran] at kept
      split
      · rfl
      · exact kept

theorem quiet_note (st : Statement) : Quiet (note st) := by
  intro s
  change (if s.place.backend.logQueries then _ else s : Session).file = s.file
  split <;> rfl

theorem quiet_connect : Quiet connect := by
  intro s
  rw [connect, run_get_bind]
  cases s.unreachable? <;> rfl

theorem refresh_file (s : Session) : s.refresh.file = s.file := by
  unfold Session.refresh
  split <;> rfl

theorem lookUp_file {t : Table} {s u : Session} (found : s.lookUp t = .ok u) : u.file = s.file := by
  unfold Session.lookUp at found
  split at found
  · cases found
    rfl
  · obtain ⟨db, _, found⟩ := bind_eq_ok.mp found
    split at found
    · cases found
      rfl
    · contradiction

theorem quiet_lookUp (doing : String) (t : Table) : Quiet (lookUp doing t) := by
  intro s
  rw [lookUp, run_get_bind]
  cases found : s.lookUp t with
  | ok u => exact lookUp_file found
  | error e => exact refresh_file s

theorem quiet_checkDepth (doing : String) (depth : Nat) : Quiet (checkDepth doing depth) := by
  unfold checkDepth
  split
  · exact .throw _
  · exact .pure ()

theorem quiet_prepare (doing : String) (st : Statement) : Quiet (prepare doing st) :=
  (quiet_checkDepth _ _).bind fun _ => (quiet_lookUp _ _).bind fun _ => quiet_checkDepth _ _

theorem file_of_readable {s : Session} {db : Database} (readable : s.readable = .ok db) :
    s.file = some db := by
  unfold Session.readable at readable
  split at readable
  · contradiction
  · next file =>
    split at readable
    · contradiction
    · cases readable
      exact file

/-- A choice of rows gives back the tables that it has read. -/
theorem step_file {sel : Selection} {s t : Session} {outcome : Outcome}
    (stepped : s.step (.select sel) = .ok (outcome, t)) : t.file = s.file := by
  unfold Session.step at stepped
  obtain ⟨db, readable, stepped⟩ := bind_eq_ok.mp stepped
  obtain ⟨answer, ran, stepped⟩ := bind_eq_ok.mp stepped
  obtain ⟨rows, _, same⟩ := map_eq_ok ran
  cases same
  cases stepped
  exact (file_of_readable readable).symm

theorem quiet_step (doing : String) (sel : Selection) : Quiet (step doing (.select sel)) := by
  intro s
  rw [step, run_get_bind]
  cases stepped : s.step (.select sel) with
  | ok p => exact step_file stepped
  | error e => exact refresh_file s

theorem quiet_perform (doing : String) (sel : Selection) : Quiet (perform doing (.select sel)) :=
  (quiet_prepare doing (.select sel)).bind fun _ => quiet_step doing sel

theorem quiet_readAll (doing : String) (read : Reader α) (outcome : Outcome) :
    Quiet (readAll doing read outcome) := by
  unfold readAll
  split
  · exact .pure _
  · exact .throw _

theorem quiet_readFirst (doing : String) (read : Reader α) (outcome : Outcome) :
    Quiet (readFirst doing read outcome) := by
  unfold readFirst
  split
  · exact .pure _
  · exact .throw _
  · exact .pure _

theorem quiet_requireProject (id : Id) : Quiet (requireProject id) := by
  refine (quiet_note _).bind fun _ => ?_
  refine ((quiet_perform _ _).bind fun _ => .pure _).bind fun found => ?_
  cases found with
  | true => exact .pure ()
  | false => exact .throw _

theorem quiet_readProject (id : Id) : Quiet (readProject id) := by
  refine (quiet_note _).bind fun _ => (quiet_perform _ _).bind fun outcome => ?_
  refine (quiet_readFirst _ _ outcome).bind fun found => ?_
  cases found with
  | some p => exact .pure p
  | none => exact .throw _

theorem quiet_readChanges (project : Id) (records : List Id) :
    Quiet (readChanges project records) := by
  unfold readChanges
  split
  · exact .pure []
  · refine (quiet_note _).bind fun _ => (quiet_prepare _ _).bind fun _ => ?_
    exact (quiet_step _ _).bind fun outcome => quiet_readAll _ _ outcome

theorem quiet_readRecord (project id : Id) : Quiet (readRecord project id) := by
  refine (quiet_note _).bind fun _ => (quiet_perform _ _).bind fun outcome => ?_
  refine (quiet_readFirst _ _ outcome).bind fun found => ?_
  cases found with
  | some r => exact (quiet_readChanges project [id]).bind fun found => .pure _
  | none => exact .throw _

end Work

open Work

theorem quiet_checkHealth : Quiet checkHealth := by
  intro s
  rw [checkHealth, run_get_bind]
  cases s.unreachable? <;> rfl

theorem quiet_getProject (id : Id) : Quiet (getProject id) :=
  quiet_connect.bind fun _ => quiet_readProject id

theorem quiet_listProjects (limit : Nat) (cursor : ProjectCursor) :
    Quiet (listProjects limit cursor) := by
  refine quiet_connect.bind fun _ => (quiet_note _).bind fun _ => (quiet_prepare _ _).bind fun _ => ?_
  exact (quiet_step _ _).bind fun outcome => quiet_readAll _ _ outcome

theorem quiet_getRecord (project id : Id) : Quiet (getRecord project id) := by
  refine quiet_connect.bind fun _ => quiet_transaction _ _ ?_
  exact (quiet_requireProject project).bind fun _ => quiet_readRecord project id

theorem quiet_listRecords (project : Id) (filter : RecordFilter) (limit : Nat)
    (cursor : RecordCursor) : Quiet (listRecords project filter limit cursor) := by
  have keyset : Quiet (ExceptT.mk (pure cursor.keyset) : Work _) := fun _ => rfl
  refine keyset.bind fun key => (quiet_note _).bind fun _ => quiet_connect.bind fun _ => ?_
  refine quiet_transaction _ _ ((quiet_requireProject project).bind fun _ => ?_)
  refine (quiet_prepare _ _).bind fun _ => (quiet_step _ _).bind fun outcome => ?_
  refine (quiet_readAll _ _ outcome).bind fun records => ?_
  exact (quiet_readChanges project _).bind fun found => .pure _

theorem quiet_handle {r : Request} (reads : r.reads = true) : Quiet (store.handle r) := by
  cases r with
  | getProject id => exact (quiet_getProject id).bind fun _ => .pure _
  | listProjects limit cursor => exact (quiet_listProjects limit cursor).bind fun _ => .pure _
  | getRecord project id => exact (quiet_getRecord project id).bind fun _ => .pure _
  | listRecords project filter limit cursor =>
    exact (quiet_listRecords project filter limit cursor).bind fun _ => .pure _
  | createProject | updateProject | dropProject | createRecords | updateRecord | deleteRecord =>
    contradiction

theorem undone_updateProject (id : Id) (u : ProjectUpdate) : Undone (updateProject id u) := by
  unfold updateProject
  split
  · exact (Quiet.throw .nothingToUpdate).undone
  · refine (quiet_note _).undone_bind fun _ => quiet_connect.undone_bind fun _ => ?_
    exact undone_transaction _ _ _

theorem undone_createRecords (records : List Record) : Undone (createRecords records) := by
  cases records with
  | nil => exact (Quiet.throw .emptyBatch).undone
  | cons first rest =>
    unfold createRecords
    simp only
    split
    · exact (Quiet.throw .mixedBatch).undone
    · exact quiet_connect.undone_bind fun _ => undone_transaction _ _ _

theorem undone_updateRecord (project id : Id) (u : RecordUpdate) :
    Undone (updateRecord project id u) := by
  unfold updateRecord
  cases u.isEmpty with
  | true => exact (Quiet.throw .nothingToUpdate).undone
  | false => exact quiet_connect.undone_bind fun _ => undone_transaction _ _ _

theorem undone_handle (r : Request) : Undone (store.handle r) := by
  have whole {α : Type} (mode : Mode) (doing : String) (w : Work α) :
      Undone (do connect; transaction mode doing w) :=
    quiet_connect.undone_bind fun _ => undone_transaction mode doing w
  cases r with
  | getProject | listProjects | getRecord | listRecords => exact (quiet_handle rfl).undone
  | createProject p => exact (whole _ _ _).map fun _ => Answer.done
  | updateProject id u => exact (undone_updateProject id u).map Answer.project
  | dropProject id => exact (whole _ _ _).map fun _ => Answer.done
  | createRecords records => exact (undone_createRecords records).map fun _ => Answer.done
  | updateRecord project id u => exact (undone_updateRecord project id u).map Answer.record
  | deleteRecord project id => exact (whole _ _ _).map fun _ => Answer.done

theorem file_of_reply_error {s : Session} {r : Request} {e : Error} (failed : s.reply r = .error e) :
    (s.after r).file = s.file :=
  undone_handle r s e _ (Prod.ext failed rfl)

theorem file_of_reads {r : Request} (reads : r.reads = true) (s : Session) :
    (s.after r).file = s.file :=
  quiet_handle reads s

namespace Content

variable {c : Content}

/-- A batch that repeats an identifier, its own or one of its project, is refused. -/
theorem Keyed.refuses_repeated (keyed : c.Keyed) {records : List Record}
    (repeated : ¬ (records.map (·.id)).Nodup ∨
      ∃ r ∈ records, c.hasRecord r.project r.id = true) :
    ∃ e, c.reply (.createRecords records) = .error e := by
  cases replied : c.reply (.createRecords records) with
  | error e => exact ⟨e, rfl⟩
  | ok a =>
    obtain ⟨p, granted, -⟩ := map_eq_ok replied
    obtain ⟨d, granted, -⟩ := map_eq_ok granted
    cases step_of_createRecords granted with
    | createRecords together present added changes =>
      have distinct := (keyed.addRecords added) .records
      rw [(addRecords_eq_ok added).2] at distinct
      obtain ⟨distinct, fresh⟩ := fresh_of_keyed distinct
      rcases repeated with repeated | ⟨r, mem, stored⟩
      · contradiction
      · rw [hasRecord, together r mem] at stored
        obtain ⟨row, old, own⟩ := List.any_eq_true.mp stored
        rw [fresh row old r mem] at own
        contradiction

theorem operationTime_assign {project id : Id} {u : RecordUpdate} {o : Operation} {row : Row}
    (written : u.operation = some o) (mem : row ∈ (c.assign project id u).records)
    (own : row.isRecord project id = true) : row.get .operationTime = .text o.time.sortable := by
  rw [records_assign] at mem
  obtain ⟨old, -, rfl⟩ := List.mem_map.mp mem
  have entry : (Column.operationTime, Value.instant o.time) ∈ u.entries := by
    simp [RecordUpdate.entries, written, Operation.entries]
  split at own
  · next same =>
    rw [if_pos same]
    exact Row.get_setAll_of_mem entry u.nodup_columns
  · contradiction

/-- An update to a time that is not read again fails, if not before, when the record is read
again. -/
theorem refuses_unreadable {project id : Id} {u : RecordUpdate} {o : Operation}
    (written : u.operation = some o) (outside : o.time.year < 0 ∨ 9999 < o.time.year) :
    ∃ e, c.reply (.updateRecord project id u) = .error e := by
  cases replied : c.reply (.updateRecord project id u) with
  | error e => exact ⟨e, rfl⟩
  | ok a =>
    obtain ⟨p, granted, -⟩ := map_eq_ok replied
    obtain ⟨⟨r, d⟩, granted, -⟩ := map_eq_ok granted
    obtain ⟨-, -, rfl, reread⟩ := updateRecord_eq_ok granted
    unfold readRecord at reread
    split at reread
    · next row found =>
      obtain ⟨r', read, -⟩ := bind_eq_ok.mp reread
      have stored := operationTime_assign written (List.mem_of_find?_eq_some found)
        (List.find?_some found)
      cases done : Reader.record row with
      | error e => rw [reading, done] at read; contradiction
      | ok r => exact absurd done (Reader.record_ne_ok outside stored)
    · contradiction

end Content

/-- Whatever fails or only reads leaves the database as it was. Among what fails is a batch that
repeats an identifier, of which some records have been added by then, and an update whose result
cannot be read again. -/
theorem failed_request_leaves_no_trace (s : Session) :
    (∀ r e, s.reply r = .error e → (s.after r).file = s.file) ∧
    (∀ r : Request, r.reads = true → (s.after r).file = s.file) ∧
    (Reachable s → ∀ records : List Record,
      (¬ (records.map (·.id)).Nodup ∨
        ∃ r ∈ records, s.content.hasRecord r.project r.id = true) →
      ∃ e, s.reply (.createRecords records) = .error e) ∧
    (Reachable s → ∀ project id u o, u.operation = some o →
      o.time.year < 0 ∨ 9999 < o.time.year →
      ∃ e, s.reply (.updateRecord project id u) = .error e) := by
  refine ⟨fun r e => file_of_reply_error, fun r reads => file_of_reads reads s, ?_, ?_⟩
  · intro reached records repeated
    rw [reached.serves.reply]
    exact reached.sound.keyed.refuses_repeated repeated
  · intro reached project id u o written outside
    rw [reached.serves.reply]
    exact Content.refuses_unreadable written outside

theorem failed_request_leaves_no_trace_default :
    let s := ((Session.opened .default).after (.createProject default)).after
      (.createRecords [default])
    let twice := [{ (default : Record) with id := .ofNat 1 }, default]
    let late : RecordUpdate :=
      ⟨none, none, some { (default : Operation) with time := ⟨253402300800, 0⟩ }, none⟩
    ((∃ e, s.reply (.createRecords twice) = .error e) ∧
        (s.after (.createRecords twice)).file = s.file) ∧
      (∃ e, s.reply (.updateRecord default default late) = .error e) ∧
        (s.after (.updateRecord default default late)).file = s.file := by
  intro s twice late
  have reached : Reachable s :=
    .answered _ (.answered _ (.opened true (openStore_empty .default)))
  have stored : s.content.hasRecord default default = true := by decide +kernel
  obtain ⟨unchanged, -, repeated, unreadable⟩ := failed_request_leaves_no_trace s
  obtain ⟨e, refused⟩ := repeated reached twice (.inr ⟨default, by simp [twice], stored⟩)
  obtain ⟨e', failed⟩ := unreadable reached default default late _ rfl (.inr (by decide))
  exact ⟨⟨⟨e, refused⟩, unchanged _ e refused⟩, ⟨e', failed⟩, unchanged _ e' failed⟩

end Embedded

end AuditTrail
