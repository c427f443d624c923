import AuditTrail.Proofs.Result
import AuditTrail.Proofs.Server.Course
import AuditTrail.Proofs.Statement
import AuditTrail.Server.Script
import AuditTrail.Server.Store

/-! What requests for one project may touch on a server. Every statement names the project where it
matters: among the conditions of its text, all of which have to hold, or in the row that it inserts. Records
are named only if the request names them or the server has just shown them. -/
namespace AuditTrail.Server

/-! What a statement is confined to -/

/-- Whether it is one of the conditions of a text that a column equals some value. -/
def Demands (c : Column) (v : Datum) (s : Statement) : Prop :=
  ∃ k, c.text ++ " = " ++ placeText (k + 1) ∈ s.sentence.conditions ∧
    (Query.statement s).values[k]? = some v

/-- Whether a text inserts a row with some value in a column. -/
def Inserts (c : Column) (v : Datum) (s : Statement) : Prop :=
  ∃ (table : Table) (entries : List (Column × Value)) (returning : List Column) (k : Nat),
    s = .insert table entries returning ∧
    (entries.map (·.1))[k]? = some c ∧ (Query.statement s).values[k]? = some v

/-- Whether a statement only concerns the rows of a project. -/
def Owned (project : Id) (s : Statement) : Prop :=
  match s.table, s with
  | .projects, _ => Demands .id (.id project) s
  | .records, .insert _ _ _ | .changes, .insert _ _ _ => Inserts .projectId (.id project) s
  | .records, _ | .changes, _ => Demands .projectId (.id project) s
  | .version, _ => False

/-- The column that a condition fixes, and the value for it. -/
def pin? : Condition → Option (Column × Value)
  | .equals c v => some (c, v)
  | .among c ids => some (c, .ids ids)
  | _ => none

/-- The columns to which a statement binds values that are written or looked for. -/
def pins (s : Statement) : List (Column × Value) :=
  s.written ++ s.conditions.filterMap pin?

/-- Whether a value names nothing but known records. -/
def NamesOnly (known : List Id) : Value → Prop
  | .id i => i ∈ known
  | .ids is => ∀ i ∈ is, i ∈ known
  | _ => False

/-- A column in which records are named. -/
def namesRecords (t : Table) (c : Column) : Prop :=
  c = .recordId ∨ t = .records ∧ c = .id

/-- A statement for a project and some records. -/
structure Confined (project : Id) (known : List Id) (s : Statement) : Prop where
  text : (Query.statement s).text = s.sentence.text
  owned : Owned project s
  named : ∀ b ∈ pins s, namesRecords s.table b.1 → NamesOnly known b.2

/-- A request for a project and some records. A script drops a partition. -/
def Request.Confined (project : Id) (known : List Id) : Server.Request → Prop
  | .connection | .begin | .commit | .rollback => True
  | .script text => ∃ number, ∃ p ∈ partitionsOf number, text = p.drop
  | .prepare (.statement s) | .execute (.statement s) => Server.Confined project known s
  | .prepare .probe | .execute .probe => False

/-- The records that rows are of. -/
def recordIds (rows : List Row) : List Id :=
  rows.filterMap fun row => (row.get? .id).bind Reader.id?

/-- The records that a server has shown in the current transaction. -/
def learn (seen : List Id) (e : Exchange) : List Id :=
  match e.request, e.answer with
  | .begin, _ => []
  | .execute (.statement (.select s)), .ok reply =>
    if s.table = .records then seen ++ recordIds reply.rows else seen
  | _, _ => seen

/-! Dialogues that stay within a project -/

namespace Dialogue

variable {α β : Type} {project : Id} {given : List Id} {post : List Id → α → Prop}
  {post' : List Id → β → Prop}

/-- Whether all that a dialogue asks is confined, if it starts after some records were seen, and what
holds of its result and the records seen by then. -/
def Within (project : Id) (given : List Id) (post : List Id → α → Prop) : Dialogue α → List Id → Prop
  | done (.ok a), seen => post seen a
  | done (.error _), _ => True
  | note _ rest, seen => rest.Within project given post seen
  | ask q next, seen => q.Confined project (given ++ seen) ∧
    ∀ answer, (next answer).Within project given post (learn seen ⟨q, answer⟩)

theorem Within.andThen {d : Dialogue α} {f : α → Dialogue β} {seen : List Id}
    (first : d.Within project given post seen)
    (rest : ∀ seen a, post seen a → (f a).Within project given post' seen) :
    (d.andThen f).Within project given post' seen := by
  induction d generalizing seen with
  | done r =>
    cases r with
    | error e => exact trivial
    | ok a => exact rest seen a first
  | note s d ih => exact ih first
  | ask q next ih => exact ⟨first.1, fun answer => ih answer (first.2 answer)⟩

/-- Where nothing is known of the result. -/
theorem Within.bind {d : Dialogue α} {f : α → Dialogue β} {seen : List Id}
    (first : d.Within project given (fun _ _ => True) seen)
    (rest : ∀ seen a, (f a).Within project given post' seen) :
    (d.andThen f).Within project given post' seen :=
  first.andThen fun seen a _ => rest seen a

theorem Within.closing {d : Dialogue α} {seen : List Id} (committing : Fault → Error)
    (work : d.Within project given (fun _ _ => True) seen) :
    (d.closing committing).Within project given (fun _ _ => True) seen := by
  induction d generalizing seen with
  | done r =>
    cases r with
    | error e => exact ⟨trivial, fun _ => trivial⟩
    | ok a =>
      refine ⟨trivial, fun answer => ?_⟩
      cases answer <;> exact trivial
  | note s d ih => exact ih work
  | ask q next ih => exact ⟨work.1, fun answer => ih answer (work.2 answer)⟩

/-- Whatever is asked in the course of a dialogue is confined, given what was seen before. -/
theorem Within.course {d : Dialogue α} {before after : List Exchange} {e : Exchange} {seen : List Id}
    {r : Except Error α} (within : d.Within project given post seen)
    (course : d.Course (before ++ e :: after) r) :
    e.request.Confined project (given ++ before.foldl learn seen) := by
  induction d generalizing before seen with
  | done result =>
    obtain ⟨impossible, -⟩ := course
    simp at impossible
  | note s d ih => exact ih within course
  | ask q next ih =>
    obtain ⟨answer, others, same, course⟩ := course
    cases before with
    | nil =>
      cases same
      exact within.1
    | cons x before =>
      cases same
      have confined := ih answer (within.2 answer) course
      exact confined

variable {seen : List Id}

theorem within_request {q : Server.Request} (confined : q.Confined project (given ++ seen))
    (report : Fault → Error) : (request report q).Within project given
      (fun seen' reply => seen' = learn seen ⟨q, .ok reply⟩) seen := by
  refine ⟨confined, fun answer => ?_⟩
  cases answer with
  | error f => exact trivial
  | ok reply => exact rfl

theorem within_perform {s : Statement} (confined : Server.Confined project (given ++ seen) s)
    (report : Fault → Error) : (Dialogue.perform report (.statement s)).Within project given
      (fun seen' reply => seen' = learn seen ⟨.execute (.statement s), .ok reply⟩) seen := by
  have prepared : Server.Request.Confined project (given ++ seen) (.prepare (.statement s)) := confined
  have executed : Server.Request.Confined project (given ++ seen) (.execute (.statement s)) := confined
  refine (within_request prepared report).andThen fun seen' reply same => ?_
  obtain rfl : seen' = seen := same
  exact within_request executed report

end Dialogue

/-! The statements of a store -/

section Statements

variable {project : Id} {known : List Id} {s : Statement}

theorem demands_of_mem {c : Column} {i : Id} (mem : .equals c (.id i) ∈ s.conditions) :
    Demands c (.id i) s := by
  obtain ⟨k, found⟩ := List.getElem?_of_mem mem
  obtain ⟨written, bound⟩ := Statement.condition_placed found
  refine ⟨s.written.length + k, List.mem_of_getElem? written, ?_⟩
  simp [Query.values, bound, Condition.value, Value.datum]

theorem inserts_of_mem {t : Table} {c : Column} {i : Id} {entries : List (Column × Value)}
    (mem : (c, .id i) ∈ entries) (returning : List Column) :
    Inserts c (.id i) (.insert t entries returning) := by
  obtain ⟨k, found⟩ := List.getElem?_of_mem mem
  have bound := @Statement.written_placed (.insert t entries returning) _ _ found
  refine ⟨t, entries, returning, k, rfl, by simp [found], ?_⟩
  simp [Query.values, bound, Value.datum]

/-- A statement on projects. -/
theorem confined_of_project (table : s.table = .projects)
    (mem : Condition.project project ∈ s.conditions)
    (alone : ∀ b ∈ pins s, b.1 ≠ .recordId) : Confined project known s := by
  refine ⟨s.text_eq, ?_, fun b pinned names => ?_⟩
  · unfold Owned
    rw [table]
    exact demands_of_mem mem
  · rcases names with record | ⟨records, -⟩
    · exact absurd record (alone b pinned)
    · rw [table] at records
      contradiction

/-- A statement on rows that are there, of the tables that belong to projects. -/
theorem confined_of_owner (table : s.table = .records ∨ s.table = .changes)
    (mem : Condition.ofProject project ∈ s.conditions)
    (named : ∀ b ∈ pins s, namesRecords s.table b.1 → NamesOnly known b.2) :
    Confined project known s := by
  refine ⟨s.text_eq, ?_, named⟩
  have demanded : Demands .projectId (.id project) s := demands_of_mem mem
  cases s with
  | insert t entries returning => contradiction
  | _ =>
    unfold Owned
    rcases table with table | table <;> rw [table] <;> exact demanded

theorem confined_of_insert {t : Table} (table : t = .records ∨ t = .changes)
    {entries : List (Column × Value)} (mem : (.projectId, .id project) ∈ entries)
    (named : ∀ e ∈ entries, namesRecords t e.1 → NamesOnly known e.2) :
    Confined project known (.insert t entries []) := by
  refine ⟨Statement.text_eq _, ?_, fun b pinned => ?_⟩
  · have inserted : Inserts .projectId (.id project) (.insert t entries []) := inserts_of_mem mem []
    rcases table with rfl | rfl <;> exact inserted
  · rw [pins, Statement.conditions, List.filterMap_nil, List.append_nil] at pinned
    exact named b pinned

theorem confined_projectPresence : Confined project known (.select (.projectPresence project)) :=
  confined_of_project rfl List.mem_cons_self (by
    simp [pins, pin?, Statement.written, Statement.conditions, Selection.projectPresence,
      Selection.plain, Condition.project])

theorem confined_project : Confined project known (.select (.project project)) :=
  confined_of_project rfl List.mem_cons_self (by
    simp [pins, pin?, Statement.written, Statement.conditions, Selection.project, Selection.plain,
      Condition.project])

theorem confined_partitionNumber : Confined project known (.select (.partitionNumber project)) :=
  confined_of_project rfl List.mem_cons_self (by
    simp [pins, pin?, Statement.written, Statement.conditions, Selection.partitionNumber,
      Selection.plain, Condition.project])

theorem confined_deleteProject : Confined project known (.deleteProject project) :=
  confined_of_project rfl List.mem_cons_self (by
    simp [pins, pin?, Statement.written, Statement.conditions, Statement.deleteProject,
      Condition.project])

variable {id : Id}

theorem confined_record (mem : id ∈ known) : Confined project known (.select (.record project id)) := by
  refine confined_of_owner (.inl rfl) List.mem_cons_self ?_
  simp [pins, pin?, Statement.written, Statement.conditions, Selection.record, Selection.plain,
    Condition.ofProject, namesRecords, NamesOnly, mem]

theorem confined_changes {ids : List Id} (mem : ∀ i ∈ ids, i ∈ known) :
    Confined project known (.select (.changes project ids)) := by
  refine confined_of_owner (.inr rfl) List.mem_cons_self ?_
  simpa [pins, pin?, Statement.written, Statement.conditions, Selection.changes,
    Condition.ofProject, namesRecords, NamesOnly, Statement.table] using mem

theorem mem_optional {α : Type} {f : α → Condition} {o : Option α} {c : Condition}
    (mem : c ∈ Selection.optional f o) : ∃ a, f a = c := by
  cases o with
  | none => contradiction
  | some a => exact ⟨a, (List.mem_singleton.mp mem).symm⟩

/-- A filter and a sort key look for no record in particular. -/
theorem not_namesRecords_of_listing {f : RecordFilter} {key : Option (Instant × Id)} {c : Condition}
    (mem : c ∈ Selection.filtering f ++ Selection.after key) {b : Column × Value}
    (pinned : pin? c = some b) : ¬ namesRecords .records b.1 := by
  have named (column : Column) (other : ¬ namesRecords .records column) {s : Option String}
      (mem : c ∈ Selection.matching column s) : ¬ namesRecords .records b.1 := by
    obtain ⟨t, rfl⟩ := mem_optional mem
    cases pinned
    exact other
  simp only [Selection.filtering, List.mem_append] at mem
  rcases mem with ((((((((mem | mem) | mem) | mem) | mem) | mem) | mem) | mem) | mem) | mem
  · split at mem
    · contradiction
    · rw [List.mem_singleton.mp mem] at pinned
      contradiction
  · exact named .resourceKind (by simp [namesRecords]) mem
  · exact named .resourceId (by simp [namesRecords]) mem
  · exact named .operationKind (by simp [namesRecords]) mem
  · exact named .operationId (by simp [namesRecords]) mem
  · exact named .actorKind (by simp [namesRecords]) mem
  · exact named .actorId (by simp [namesRecords]) mem
  · obtain ⟨t, rfl⟩ := mem_optional mem
    contradiction
  · obtain ⟨t, rfl⟩ := mem_optional mem
    contradiction
  · cases key with
    | none => contradiction
    | some key =>
      simp only [Selection.after, List.mem_cons, List.not_mem_nil, or_false] at mem
      rcases mem with rfl | rfl <;> contradiction

theorem confined_records (filter : RecordFilter) (limit : Nat) (key : Option (Instant × Id)) :
    Confined project known (.select (.records project filter limit key)) := by
  refine confined_of_owner (.inl rfl) List.mem_cons_self ?_
  intro b pinned names
  rcases List.mem_cons.mp pinned with rfl | pinned
  · simp [namesRecords] at names
  · obtain ⟨c, mem, pinned⟩ := List.mem_filterMap.mp pinned
    exact absurd names (not_namesRecords_of_listing mem pinned)

theorem confined_insertRecord {r : Record} (mem : r.id ∈ known) (t : Instant) :
    Confined project known (.insertRecord project t r) := by
  refine confined_of_insert (.inl rfl) (by simp [Record.entries]) ?_
  simp [Record.entries, Resource.entries, Operation.entries, Actor.entries, namesRecords, NamesOnly,
    mem]

theorem confined_insertChange (mem : id ∈ known) (position : Nat) (c : Change) :
    Confined project known (.insertChange project id position c) := by
  refine confined_of_insert (.inr rfl) (by simp) ?_
  simp [Change.entries, namesRecords, NamesOnly, mem]

theorem confined_updateRecord (mem : id ∈ known) (u : RecordUpdate) :
    Confined project known (.updateRecord project id u) := by
  refine confined_of_owner (.inl rfl) List.mem_cons_self ?_
  intro b pinned names
  rcases List.mem_append.mp pinned with written | pinned
  · have column := RecordUpdate.writes_of_mem (List.mem_map_of_mem written)
    rcases names with record | ⟨-, record⟩ <;> rw [record] at column <;> contradiction
  · simp only [Statement.conditions, Statement.updateRecord, Condition.ofProject, List.filterMap_cons,
      pin?, List.filterMap_nil, List.mem_cons, List.not_mem_nil, or_false] at pinned
    rcases pinned with rfl | rfl
    · simp [namesRecords] at names
    · exact mem

theorem confined_deleteRecord (mem : id ∈ known) :
    Confined project known (.deleteRecord project id) := by
  refine confined_of_owner (.inl rfl) List.mem_cons_self ?_
  simp [pins, pin?, Statement.written, Statement.conditions, Statement.deleteRecord,
    Condition.ofProject, namesRecords, NamesOnly, mem]

theorem confined_deleteChanges (mem : id ∈ known) :
    Confined project known (.deleteChanges project id) := by
  refine confined_of_owner (.inr rfl) List.mem_cons_self ?_
  simp [pins, pin?, Statement.written, Statement.conditions, Statement.deleteChanges,
    Condition.ofProject, namesRecords, NamesOnly, mem]

theorem confined_deleteRecords : Confined project known (.deleteRecords project) := by
  refine confined_of_owner (.inl rfl) List.mem_cons_self ?_
  simp [pins, pin?, Statement.written, Statement.conditions, Statement.deleteRecords,
    Condition.ofProject, namesRecords]

theorem confined_deleteProjectChanges : Confined project known (.deleteProjectChanges project) := by
  refine confined_of_owner (.inr rfl) List.mem_cons_self ?_
  simp [pins, pin?, Statement.written, Statement.conditions, Statement.deleteProjectChanges,
    Condition.ofProject, namesRecords]

end Statements

/-! The pieces of operations -/

section Pieces

open Dialogue

variable {project id : Id} {given : List Id}

/-- Whether a dialogue stays within a project, whatever was seen before. -/
def Stays {α : Type} (project : Id) (given : List Id) (d : Dialogue α) : Prop :=
  ∀ seen, d.Within project given (fun _ _ => True) seen

section Rules

variable {α β : Type}

theorem stays_done (r : Except Error α) : Stays project given (done r) := by
  intro seen
  cases r <;> exact trivial

theorem Stays.bind {d : Dialogue α} {f : α → Dialogue β} (first : Stays project given d)
    (rest : ∀ a, Stays project given (f a)) : Stays project given (d.andThen f) :=
  fun seen => (first seen).bind fun seen a => rest a seen

theorem Stays.note {s : Statement} {d : Dialogue α} (stays : Stays project given d) :
    Stays project given (.note s d) := stays

theorem stays_request {q : Server.Request} (confined : ∀ seen, q.Confined project (given ++ seen))
    (report : Fault → Error) : Stays project given (request report q) := by
  refine fun seen => ⟨confined seen, fun answer => ?_⟩
  cases answer <;> exact trivial

variable {s : Statement}

theorem stays_perform (confined : ∀ seen, Confined project (given ++ seen) s)
    (report : Fault → Error) : Stays project given (Dialogue.perform report (.statement s)) :=
  (stays_request (q := .prepare (.statement s)) confined report).bind fun _ =>
    stays_request (q := .execute (.statement s)) confined report

theorem stays_performOptional (confined : ∀ seen, Confined project (given ++ seen) s)
    (report : Fault → Error) : Stays project given (Dialogue.performOptional report (.statement s)) := by
  refine (stays_perform confined report).bind fun reply => ?_
  rcases reply.rows with _ | ⟨row, _ | ⟨other, rest⟩⟩ <;> exact stays_done _

theorem stays_executeEach {s : Nat → α → Statement} {items : List α}
    (confined : ∀ n, ∀ a ∈ items, ∀ seen, Confined project (given ++ seen) (s n a)) (doing : String)
    (n : Nat) : Stays project given (executeEach doing s n items) := by
  induction items generalizing n with
  | nil => exact stays_done _
  | cons a rest ih =>
    refine (stays_request (q := .execute (.statement (s n a))) ?_ _).bind fun _ => ?_
    · exact confined n a List.mem_cons_self
    · exact ih (fun n b mem => confined n b (List.mem_cons_of_mem _ mem)) (n + 1)

theorem stays_insertEach {s : Nat → α → Statement} {items : List α}
    (confined : ∀ n, ∀ a ∈ items, ∀ seen, Confined project (given ++ seen) (s n a)) (doing : String) :
    Stays project given (insertEach doing s items) := by
  cases items with
  | nil => exact stays_done _
  | cons a rest =>
    refine (stays_request (q := .prepare (.statement (s 0 a))) ?_ _).bind fun _ => ?_
    · exact confined 0 a List.mem_cons_self
    · exact stays_executeEach confined doing 0

theorem stays_deleteEach {ss : List Statement}
    (confined : ∀ s ∈ ss, ∀ seen, Confined project (given ++ seen) s) :
    Stays project given (deleteEach ss) := by
  induction ss with
  | nil => exact stays_done _
  | cons s rest ih =>
    obtain ⟨first, others⟩ := List.forall_mem_cons.mp confined
    exact (stays_perform first _).bind fun _ => ih others

end Rules

theorem stays_requireProject : Stays project given (requireProject project) := by
  refine (stays_performOptional (fun _ => confined_projectPresence) _).bind fun o => ?_
  cases o <;> exact stays_done _

theorem stays_readProject : Stays project given (readProject project) := by
  refine (stays_performOptional (fun _ => confined_project) _).bind fun o => ?_
  cases o <;> exact stays_done _

theorem stays_readNumber (row : Row) : Stays project given (readNumber row) := stays_done _

/-- The changes of records may be read that are given or have been seen. -/
theorem within_readChanges {ids seen : List Id} (mem : ∀ i ∈ ids, i ∈ given ++ seen) :
    (readChanges project ids).Within project given (fun _ _ => True) seen := by
  unfold readChanges
  split
  · exact trivial
  · refine (within_perform (confined_changes mem) _).andThen fun seen' reply _ => ?_
    rw [mapM_read]
    exact stays_done _ seen'

theorem stays_readChanges {ids : List Id} (mem : ∀ i ∈ ids, i ∈ given) :
    Stays project given (readChanges project ids) :=
  fun _ => within_readChanges fun i inside => List.mem_append_left _ (mem i inside)

theorem stays_readRecord (mem : id ∈ given) : Stays project given (readRecord project id) := by
  refine (stays_performOptional (fun seen => confined_record (List.mem_append_left seen mem)) _).bind
    fun o => ?_
  cases o with
  | none => exact stays_done _
  | some row =>
    refine (stays_done _).bind fun r => ?_
    exact (stays_readChanges (by simpa using mem)).bind fun _ => stays_done _

theorem stays_insertChanges (mem : id ∈ given) (changes : List Change) :
    Stays project given (insertChanges project id changes) :=
  stays_insertEach (fun n c _ seen => confined_insertChange (List.mem_append_left seen mem) n c) _

theorem stays_deleteChanges (mem : id ∈ given) : Stays project given (deleteChanges project id) :=
  (stays_perform (fun seen => confined_deleteChanges (List.mem_append_left seen mem)) _).bind fun _ =>
    stays_done _

theorem stays_insertAllChanges {records : List Record} (mem : ∀ r ∈ records, r.id ∈ given) :
    Stays project given (insertAllChanges project records) := by
  induction records with
  | nil => exact stays_done _
  | cons r rest ih =>
    obtain ⟨first, others⟩ := List.forall_mem_cons.mp mem
    exact (stays_insertChanges first r.resource.changes).bind fun _ => ih others

theorem stays_scriptEach {ps : List Partition} {number : Int}
    (own : ∀ p ∈ ps, p ∈ partitionsOf number) (doing : String) :
    Stays project given (scriptEach doing Partition.drop ps) := by
  induction ps with
  | nil => exact stays_done _
  | cons p rest ih =>
    obtain ⟨first, others⟩ := List.forall_mem_cons.mp own
    have stays : Stays project given (script (Fault.internal (doing ++ " " ++ p.name)) p.drop) :=
      (stays_request (q := .script p.drop) (fun _ => ⟨number, p, first, rfl⟩) _).bind fun _ => stays_done _
    exact stays.bind fun _ => ih others

theorem stays_connect : Stays project given connect :=
  (stays_request (q := .connection) (fun _ => trivial) _).bind fun _ => stays_done _

theorem Stays.transaction {α : Type} {work : Dialogue α} (stays : Stays project given work)
    (text : String) : Stays project given (Server.transaction text work) := by
  refine fun seen => ⟨trivial, fun answer => ?_⟩
  cases answer with
  | error f => exact ⟨trivial, fun _ => trivial⟩
  | ok reply => exact (stays _).closing _

end Pieces

/-! Whole requests -/

/-- The project that a request is for, if it works on the records of one or drops one. -/
def tenant? : AuditTrail.Request → Option Id
  | .createRecords records => records.head?.map (·.project)
  | .getRecord project _ | .listRecords project _ _ _ | .updateRecord project _ _
  | .deleteRecord project _ => some project
  | .dropProject id => some id
  | .createProject _ | .getProject _ | .listProjects _ _ | .updateProject _ _ => none

/-- The records that a request names. -/
def givenIds : AuditTrail.Request → List Id
  | .createRecords records => records.map (·.id)
  | .getRecord _ id | .updateRecord _ id _ | .deleteRecord _ id => [id]
  | _ => []

section Operations

open Dialogue

variable {project id : Id}

theorem id_of_record {row : Row} {r : Record} (read : Reader.record row = .ok r) :
    (row.get? .id).bind Reader.id? = some r.id := by
  obtain ⟨status, -, read⟩ := bind_eq_ok.mp read
  obtain ⟨i, column, read⟩ := bind_eq_ok.mp read
  have kept : r.id = i := by
    repeat
      obtain ⟨_, -, read⟩ := bind_eq_ok.mp read
    cases read
    rfl
  rw [kept]
  exact Reader.column_eq_ok.mp column

/-- A page shows records before their changes are asked for. -/
theorem stays_listRecords (filter : RecordFilter) (limit : Nat) (cursor : RecordCursor) :
    Stays project [] (listRecords project filter limit cursor) := by
  unfold listRecords
  refine (stays_done cursor.keyset).bind fun key => ?_
  refine Stays.note (stays_connect.bind fun _ => Stays.transaction ?_ _)
  refine stays_requireProject.bind fun _ seen => ?_
  refine (within_perform (confined_records filter limit key) _).andThen fun seen' reply same => ?_
  obtain rfl : seen' = seen ++ recordIds reply.rows := same
  simp only [bind_eq, mapM_read, demand]
  cases read : reply.rows.mapM Reader.record with
  | error f => exact trivial
  | ok records =>
    have shown : ∀ i ∈ records.map (·.id), i ∈ recordIds reply.rows := by
      intro i mem
      obtain ⟨r, shown, rfl⟩ := List.mem_map.mp mem
      obtain ⟨row, shown, read⟩ := mem_of_mapM_eq_ok read shown
      exact List.mem_filterMap.mpr ⟨row, shown, id_of_record read⟩
    have changes : (readChanges project (records.map (·.id))).Within project []
        (fun _ _ => True) (seen ++ recordIds reply.rows) :=
      within_readChanges fun i mem => List.mem_append_right _ (List.mem_append_right _ (shown i mem))
    exact changes.bind fun seen found => stays_done (.ok (Record.attach found records)) seen

theorem stays_createRecords {records : List Record} (on : records.head?.map (·.project) = some project) :
    Stays project (records.map (·.id)) (createRecords records) := by
  cases records with
  | nil => contradiction
  | cons first rest =>
    cases on
    unfold createRecords
    dsimp only
    split
    · exact stays_done _
    · refine stays_connect.bind fun _ => Stays.transaction ?_ _
      refine stays_requireProject.bind fun _ => ?_
      refine (stays_insertEach ?_ _).bind fun _ => stays_insertAllChanges ?_
      · intro n r mem seen
        exact confined_insertRecord (List.mem_append_left _ (List.mem_map_of_mem mem)) _
      · exact fun r mem => List.mem_map_of_mem mem

theorem stays_dropProject (config : ServerConfig) : Stays project [] (dropProject config project) := by
  refine stays_connect.bind fun _ => Stays.transaction ?_ _
  refine (stays_performOptional (fun _ => confined_partitionNumber) _).bind fun o => ?_
  cases o with
  | none => exact stays_done _
  | some row =>
    refine (stays_readNumber row).bind fun number => ?_
    have projects : Stays project [] (deleteEach [.deleteProject project]) :=
      stays_deleteEach (by simpa using fun _ => confined_deleteProject)
    split
    · exact (stays_scriptEach (fun _ mem => mem) _).bind fun _ => projects
    · refine (stays_deleteEach ?_).bind fun _ => projects
      simpa using ⟨fun _ => confined_deleteProjectChanges, fun _ => confined_deleteRecords⟩

theorem stays_updateRecord (u : RecordUpdate) :
    Stays project [id] (updateRecord project id u) := by
  simp only [updateRecord]
  split
  · exact stays_done _
  · refine stays_connect.bind fun _ => Stays.transaction ?_ _
    refine stays_readProject.bind fun p => ?_
    have read : Stays project [id] (readRecord project id) := stays_readRecord List.mem_cons_self
    have goes : Stays project [id] (Server.perform "Failed to update record"
        (.updateRecord project id u)) :=
      stays_perform (fun seen => confined_updateRecord List.mem_cons_self u) _
    split
    · exact stays_done _
    · refine goes.bind fun reply => ?_
      split
      · exact stays_done _
      · cases u.resource with
        | none => exact read
        | some resource =>
          exact (stays_deleteChanges List.mem_cons_self).bind fun _ =>
            (stays_insertChanges List.mem_cons_self resource.changes).bind fun _ => read

theorem stays_deleteRecord : Stays project [id] (deleteRecord project id) := by
  refine stays_connect.bind fun _ => Stays.transaction ?_ _
  refine stays_readProject.bind fun p => ?_
  split
  · exact stays_done _
  · refine (stays_deleteChanges List.mem_cons_self).bind fun _ => ?_
    exact (stays_perform (fun seen => confined_deleteRecord List.mem_cons_self) _).bind fun _ =>
      stays_done _

theorem stays_handle (config : ServerConfig) {r : AuditTrail.Request} (on : tenant? r = some project) :
    Stays project (givenIds r) ((store config).handle r) := by
  cases r with
  | createProject p => contradiction
  | getProject id => contradiction
  | listProjects limit cursor => contradiction
  | updateProject id u => contradiction
  | dropProject id =>
    cases on
    exact (stays_dropProject config).bind fun _ => stays_done _
  | createRecords records => exact (stays_createRecords on).bind fun _ => stays_done _
  | getRecord project id =>
    cases on
    refine Stays.bind ?_ fun _ => stays_done _
    refine stays_connect.bind fun _ => Stays.transaction ?_ _
    exact stays_requireProject.bind fun _ => stays_readRecord List.mem_cons_self
  | listRecords project filter limit cursor =>
    cases on
    exact (stays_listRecords filter limit cursor).bind fun _ => stays_done _
  | updateRecord project id u =>
    cases on
    exact (stays_updateRecord u).bind fun _ => stays_done _
  | deleteRecord project id =>
    cases on
    exact stays_deleteRecord.bind fun _ => stays_done _

end Operations

/-- Whatever a server answers, all that a request for one project asks of it is confined to the project,
to the records that the request names and to those that the server has shown in the same transaction. -/
theorem requests_are_confined {σ : Type} (peer : Peer σ) (config : ServerConfig) (l : Line) (s : σ)
    {r : AuditTrail.Request} {project : Id} (on : tenant? r = some project) {before after : List Exchange}
    {e : Exchange} (asked : l.exchanges peer ((store config).handle r) s = before ++ e :: after) :
    e.request.Confined project (givenIds r ++ before.foldl learn []) := by
  have course := Line.course_exchanges peer ((store config).handle r) l s
  rw [asked] at course
  exact (stays_handle config on []).course course

/-- The changes of a record that the server has just shown may be asked for. -/
theorem requests_are_confined_shown_record :
    (Request.prepare (.statement (.select (.changes (.ofNat 7) [.ofNat 8])))).Confined (.ofNat 7)
      [.ofNat 8] := by
  let shown : Record := { (default : Record) with id := .ofNat 8 }
  let row : Row := (shown.entries (.ofNat 7) .epoch).map fun (c, v) => (c, v.datum)
  let script : Script := ⟨.welcome, .ok .empty, .ok .empty,
    [.answer (.ok ⟨[[]], 0⟩), .answer (.ok ⟨[row], 0⟩)]⟩
  let es := (Line.idle .default).exchanges (Peer.scripted true)
    ((store .default).handle (.listRecords (.ofNat 7) default 10 .start)) script
  have asked : es = es.take 6 ++
      ⟨.prepare (.statement (.select (.changes (.ofNat 7) [.ofNat 8]))), .ok .empty⟩ :: es.drop 7 := by
    decide +kernel
  exact requests_are_confined (Peer.scripted true) .default (Line.idle .default) script rfl asked

end AuditTrail.Server
