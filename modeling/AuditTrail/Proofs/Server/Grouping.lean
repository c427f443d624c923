import AuditTrail.Proofs.Grouping
import AuditTrail.Proofs.Result
import AuditTrail.Proofs.Server.Discipline

/-! How the records that a server shows get their changes. The changes of a page come in one answer, for all
records and in whatever order, and each record takes those that bear its identifier. -/
namespace AuditTrail.Server

open Dialogue

/-- The table that a request is about. -/
def Request.table? : Request → Option Table
  | prepare (.statement s) | execute (.statement s) => some s.table
  | _ => none

/-- The exchanges in which the changes of records are fetched, and the changes that are found. Without
records nothing is asked. -/
def Fetches (project : Id) (ids : List Id) (es : List Exchange) (found : List (Id × Change)) : Prop :=
  if ids = [] then es = [] ∧ found = []
  else ∃ prepared reply, es = answered (.statement (.select (.changes project ids))) prepared reply
    ∧ reply.rows.mapM Reader.change = .ok found

/-- The exchanges in which a page of records is listed, with the records as they are shown, in order and
without their changes, and the changes that are found for them. -/
def Lists (project : Id) (filter : RecordFilter) (limit : Nat) (key : Option (Instant × Id))
    (es : List Exchange) (base : List Record) (found : List (Id × Change)) : Prop :=
  ∃ connected begun there present prepared reply fetching kept,
    es = ⟨.connection, .ok connected⟩ :: ⟨.begin, .ok begun⟩ ::
      (answered (.statement (.select (.projectPresence project))) there present
        ++ answered (.statement (.select (.records project filter limit key))) prepared reply
        ++ fetching ++ [⟨.commit, .ok kept⟩])
    ∧ present.rows.length = 1 ∧ reply.rows.mapM Reader.record = .ok base
    ∧ Fetches project (base.map (·.id)) fetching found

variable {project id : Id} {es : List Exchange}

theorem course_connect_ok : connect.Course es (.ok ()) ↔ ∃ reply, es = [⟨.connection, .ok reply⟩] := by
  rw [connect, bind_eq, course_andThen_ok]
  simp only [course_request_ok]
  constructor
  · rintro ⟨_, _, reply, rfl, rfl, rfl, -⟩
    exact ⟨reply, rfl⟩
  · rintro ⟨reply, rfl⟩
    exact ⟨_, [], reply, rfl, rfl, rfl, rfl⟩

theorem course_requireProject_ok : (requireProject project).Course es (.ok ()) ↔ ∃ prepared reply,
    es = answered (.statement (.select (.projectPresence project))) prepared reply
    ∧ reply.rows.length = 1 := by
  rw [requireProject, bind_eq, course_andThen_ok]
  constructor
  · rintro ⟨_, others, _ | row, rfl, course, done⟩
    · cases done.2
    · obtain ⟨prepared, reply, rfl, rows⟩ := course_performOptional_ok.mp course
      obtain ⟨rfl, -⟩ := done
      exact ⟨prepared, reply, List.append_nil _, congrArg List.length rows⟩
  · rintro ⟨prepared, reply, rfl, one⟩
    obtain ⟨row, rows⟩ := List.length_eq_one_iff.mp one
    exact ⟨_, [], some row, (List.append_nil _).symm,
      course_performOptional_ok.mpr ⟨prepared, reply, rfl, rows⟩, rfl, rfl⟩

theorem course_readChanges_ok {ids : List Id} {found : List (Id × Change)} :
    (readChanges project ids).Course es (.ok found) ↔ Fetches project ids es found := by
  cases ids with
  | nil =>
    rw [Fetches, if_pos rfl]
    exact and_congr_right fun _ => Except.ok.injEq found [] ▸ Iff.rfl
  | cons id rest =>
    rw [Fetches, if_neg (List.cons_ne_nil id rest)]
    refine course_andThen_ok.trans ⟨?_, ?_⟩
    · rintro ⟨_, _, reply, rfl, course, all⟩
      obtain ⟨prepared, rfl⟩ := course_perform_ok.mp course
      obtain ⟨rfl, read⟩ := course_readAll_ok.mp all
      exact ⟨prepared, reply, List.append_nil _, read⟩
    · rintro ⟨prepared, reply, rfl, read⟩
      exact ⟨_, [], reply, (List.append_nil _).symm, course_perform_ok.mpr ⟨prepared, rfl⟩,
        course_readAll_ok.mpr ⟨rfl, read⟩⟩

/-- Work in one transaction on a connection, when it succeeds. -/
theorem course_conducted_ok {α : Type} {doing : String} {work : Dialogue α} {a : α} :
    (connect.andThen fun _ => transaction doing work).Course es (.ok a) ↔ ∃ connected begun done kept,
      es = ⟨.connection, .ok connected⟩ :: ⟨.begin, .ok begun⟩ :: (done ++ [⟨.commit, .ok kept⟩])
      ∧ work.Course done (.ok a) := by
  rw [course_andThen_ok]
  constructor
  · rintro ⟨_, _, _, rfl, course, whole⟩
    obtain ⟨connected, rfl⟩ := course_connect_ok.mp course
    obtain ⟨begun, done, kept, rfl, worked⟩ := course_transaction_ok.mp whole
    exact ⟨connected, begun, done, kept, rfl, worked⟩
  · rintro ⟨connected, begun, done, kept, rfl, worked⟩
    exact ⟨_, _, (), rfl, course_connect_ok.mpr ⟨connected, rfl⟩,
      course_transaction_ok.mpr ⟨begun, done, kept, rfl, worked⟩⟩

theorem course_listRecords_ok {filter : RecordFilter} {limit : Nat} {cursor : RecordCursor}
    {key : Option (Instant × Id)} (complete : cursor.keyset = .ok key) {records : List Record} :
    (listRecords project filter limit cursor).Course es (.ok records) ↔
      ∃ base found, Lists project filter limit key es base found ∧ records = Record.attach found base := by
  rw [listRecords, complete]
  change (connect.andThen fun _ => transaction _ _).Course es _ ↔ _
  rw [course_conducted_ok]
  constructor
  · rintro ⟨connected, begun, _, kept, rfl, worked⟩
    obtain ⟨_, _, _, rfl, checked, listing⟩ := course_andThen_ok.mp worked
    obtain ⟨there, present, rfl, one⟩ := course_requireProject_ok.mp checked
    obtain ⟨_, _, reply, rfl, asked, reading⟩ := course_andThen_ok.mp listing
    obtain ⟨prepared, rfl⟩ := course_perform_ok.mp asked
    obtain ⟨_, _, base, rfl, read, loading⟩ := course_andThen_ok.mp reading
    obtain ⟨rfl, shown⟩ := course_readAll_ok.mp read
    obtain ⟨fetching, _, found, rfl, fetched, rfl, same⟩ := course_andThen_ok.mp loading
    refine ⟨base, found, ⟨connected, begun, there, present, prepared, reply, fetching, kept, ?_, one,
      shown, course_readChanges_ok.mp fetched⟩, Except.ok.inj same⟩
    simp
  · rintro ⟨base, found, ⟨connected, begun, there, present, prepared, reply, fetching, kept, rfl, one,
      shown, fetched⟩, rfl⟩
    refine ⟨connected, begun, _, kept, rfl, ?_⟩
    rw [List.append_assoc]
    refine course_andThen_ok.mpr ⟨_, _, (), rfl, course_requireProject_ok.mpr ⟨there, present, rfl, one⟩, ?_⟩
    refine course_andThen_ok.mpr ⟨_, _, reply, rfl, course_perform_ok.mpr ⟨prepared, rfl⟩, ?_⟩
    refine course_andThen_ok.mpr ⟨[], _, base, rfl, course_readAll_ok.mpr ⟨rfl, shown⟩, ?_⟩
    exact course_andThen_ok.mpr ⟨_, [], found, (List.append_nil _).symm,
      course_readChanges_ok.mpr fetched, rfl, rfl⟩

/-! What is asked, whatever is answered -/

/-- Whether everything that a dialogue asks is about one table, or about none. -/
def Dialogue.About {α : Type} (t : Option Table) (d : Dialogue α) : Prop :=
  ∀ es r, d.Course es r → ∀ x ∈ es, x.request.table? = t

namespace Dialogue.About

variable {α β : Type} {t : Option Table} {report : Fault → Error}

theorem done (r : Except Error α) : (Dialogue.done r).About t := by
  rintro _ _ ⟨rfl, -⟩ x mem
  cases mem

theorem andThen {d : Dialogue α} {f : α → Dialogue β} (first : d.About t) (next : ∀ a, (f a).About t) :
    (d.andThen f).About t := by
  intro es r course x mem
  obtain ⟨e, failed, -⟩ | ⟨front, others, a, rfl, came, rest⟩ := course_andThen.mp course
  · exact first es _ failed x mem
  · rcases List.mem_append.mp mem with mem | mem
    · exact first front _ came x mem
    · exact next a others r rest x mem

theorem request (q : Request) : (Dialogue.request report q).About q.table? := by
  intro es r course x mem
  obtain ⟨answer, rfl, -⟩ := course_request.mp course
  rw [List.mem_singleton.mp mem]

theorem perform (s : Statement) : (Dialogue.perform report (.statement s)).About (some s.table) :=
  (request (.prepare (.statement s))).andThen fun _ => request (.execute (.statement s))

theorem readAll (reader : Reader α) (rows : List Row) : (rows.mapM (read reader)).About t := by
  rw [mapM_read]
  exact done _

end Dialogue.About

theorem about_requireProject (project : Id) : (requireProject project).About (some .projects) := by
  have asked : (Dialogue.performOptional (Fault.internal "Failed to check project")
      (.statement (.select (.projectPresence project)))).About (some .projects) := by
    refine (About.perform _).andThen fun reply => ?_
    split <;> exact .done _
  refine asked.andThen fun row => ?_
  cases row <;> exact .done _

theorem about_readChanges (project : Id) (ids : List Id) :
    (readChanges project ids).About (some .changes) := by
  cases ids with
  | nil => exact .done _
  | cons id rest =>
    exact (About.perform (.select (.changes project (id :: rest)))).andThen fun reply =>
      .readAll Reader.change reply.rows

theorem about_close {α : Type} {committing : Fault → Error} (result : Except Error α) :
    (close committing result).About none := by
  cases result with
  | ok a => exact (About.request .commit).andThen fun _ => .done _
  | error e =>
    rintro _ _ ⟨answer, _, rfl, rfl, rfl⟩ x mem
    rw [List.mem_singleton.mp mem]
    rfl

theorem about_connect : connect.About none :=
  (About.request .connection).andThen fun _ => .done _

theorem Dialogue.About.ne {α : Type} {d : Dialogue α} {t u : Option Table} (about : d.About t)
    (other : t ≠ u) {r : Except Error α} (course : d.Course es r) : ∀ x ∈ es, x.request.table? ≠ u :=
  fun x mem => about es r course x mem ▸ other

/-- The work of listing a page asks nothing about changes, or rows were shown before. -/
theorem course_listing {report : Fault → Error} {s : Statement} (table : s.table = .records)
    {r : Except Error (List Record)} (course : ((requireProject project).andThen fun _ =>
      (Dialogue.perform report (.statement s)).andThen fun reply =>
        (reply.rows.mapM (read Reader.record)).andThen fun base =>
          (readChanges project (base.map (·.id))).andThen fun found =>
            done (.ok (Record.attach found base))).Course es r) :
    (∀ x ∈ es, x.request.table? ≠ some .changes) ∨ ∃ before prepared page after,
      es = before ++ answered (.statement s) prepared page ++ after
      ∧ (∀ x ∈ before ++ after, x.request.table? ≠ some .records) ∧ page.rows ≠ [] := by
  have checks := about_requireProject project
  have asks : (Dialogue.perform report (.statement s)).About (some .records) := table ▸ About.perform s
  obtain ⟨_, failed, -⟩ | ⟨_, _, _, rfl, checked, listing⟩ := course_andThen.mp course
  · exact .inl (checks.ne (by simp) failed)
  obtain ⟨_, failed, -⟩ | ⟨_, _, page, rfl, asked, reading⟩ := course_andThen.mp listing
  · exact .inl (List.forall_mem_append.mpr ⟨checks.ne (by simp) checked, asks.ne (by simp) failed⟩)
  have silent := List.forall_mem_append.mpr ⟨checks.ne (u := some .changes) (by simp) checked,
    asks.ne (by simp) asked⟩
  obtain ⟨prepared, rfl⟩ := course_perform_ok.mp asked
  obtain ⟨_, failed, -⟩ | ⟨_, fetching, base, rfl, read, loading⟩ := course_andThen.mp reading
  · rw [← List.append_assoc]
    exact .inl (List.forall_mem_append.mpr ⟨silent, (About.readAll _ _).ne (t := none) (by simp) failed⟩)
  obtain ⟨rfl, shown⟩ := course_readAll_ok.mp read
  by_cases none : page.rows = []
  · rw [none] at shown
    cases shown
    obtain ⟨rfl, -⟩ := loading
    exact .inl (by simpa using silent)
  · have fetches := ((about_readChanges project (base.map (·.id))).andThen fun found =>
      .done (.ok (Record.attach found base))).ne (u := some .records) (by simp) loading
    exact .inr ⟨_, prepared, page, fetching, by simp,
      List.forall_mem_append.mpr ⟨checks.ne (by simp) checked, fetches⟩, none⟩

/-- All exchanges of a page but those about its records. When changes are asked about, rows were shown. -/
theorem course_page {filter : RecordFilter} {limit : Nat} {cursor : RecordCursor}
    {key : Option (Instant × Id)} (complete : cursor.keyset = .ok key) {r : Except Error (List Record)}
    (course : (listRecords project filter limit cursor).Course es r) :
    (∀ x ∈ es, x.request.table? ≠ some .changes) ∨ ∃ before prepared page after,
      es = before ++ answered (.statement (.select (.records project filter limit key))) prepared page
        ++ after
      ∧ (∀ x ∈ before ++ after, x.request.table? ≠ some .records) ∧ page.rows ≠ [] := by
  rw [listRecords, complete] at course
  change (connect.andThen fun _ => transaction _ _).Course es _ at course
  obtain ⟨_, failed, -⟩ | ⟨connecting, _, _, rfl, connected, whole⟩ := course_andThen.mp course
  · exact .inl (about_connect.ne (by simp) failed)
  obtain ⟨_, _, rfl, -⟩ | ⟨begun, work, last, _, rfl, worked, closed⟩ := course_transaction whole
  · refine .inl (List.forall_mem_append.mpr ⟨about_connect.ne (by simp) connected, ?_⟩)
    simp [Request.table?]
  have opening {u : Table} : ∀ x ∈ connecting ++ [⟨.begin, .ok begun⟩], x.request.table? ≠ some u :=
    List.forall_mem_append.mpr ⟨about_connect.ne (by simp) connected, by simp [Request.table?]⟩
  have ending {u : Table} : ∀ x ∈ last, x.request.table? ≠ some u :=
    (about_close _).ne (by simp) closed
  rw [List.append_cons]
  obtain silent | ⟨before, prepared, page, after, rfl, others, rows⟩ := course_listing rfl worked
  · exact .inl (List.forall_mem_append.mpr ⟨opening, List.forall_mem_append.mpr ⟨silent, ending⟩⟩)
  · obtain ⟨front, back⟩ := List.forall_mem_append.mp others
    refine .inr ⟨connecting ++ [⟨.begin, .ok begun⟩] ++ before, prepared, page, after ++ last,
      by simp, ?_, rows⟩
    exact List.forall_mem_append.mpr ⟨List.forall_mem_append.mpr ⟨opening, front⟩,
      List.forall_mem_append.mpr ⟨back, ending⟩⟩

/-- Where the answer to the statement of a page has no rows, nothing is asked about changes. -/
theorem silent_of_course_listRecords {filter : RecordFilter} {limit : Nat} {cursor : RecordCursor}
    {key : Option (Instant × Id)} (complete : cursor.keyset = .ok key) {r : Except Error (List Record)}
    (course : (listRecords project filter limit cursor).Course es r) {reply : Reply}
    (shown : ⟨.execute (.statement (.select (.records project filter limit key))), .ok reply⟩ ∈ es)
    (empty : reply.rows = []) : ∀ x ∈ es, x.request.table? ≠ some .changes := by
  obtain silent | ⟨before, prepared, page, after, rfl, others, rows⟩ := course_page complete course
  · exact silent
  · refine absurd empty ?_
    have here : reply = page := by
      simp only [List.mem_append, answered, List.mem_cons, List.not_mem_nil, or_false] at shown others
      rcases shown with (shown | shown | shown) | shown
      · exact absurd rfl (others _ (.inl shown))
      · cases shown
      · cases shown
        rfl
      · exact absurd rfl (others _ (.inr shown))
    rwa [here]

/-! One record -/

/-- The changes that belong to a record among those found, in the order in which they were found. -/
def ownChanges (found : List (Id × Change)) (id : Id) : List Change :=
  (found.filter (·.1 = id)).map (·.2)

theorem changesOf_eq_ownChanges (found : List (Id × Change)) (id : Id) :
    Record.changesOf found id = ownChanges found id :=
  Record.changesOf_eq found id

/-- The exchanges in which a record is read: it is shown, and the changes for its identifier are fetched. -/
def ReadsRecord (project id : Id) (es : List Exchange) (r : Record) : Prop :=
  ∃ prepared reply row base fetching found,
    es = answered (.statement (.select (.record project id))) prepared reply ++ fetching
    ∧ reply.rows = [row] ∧ Reader.record row = .ok base ∧ Fetches project [id] fetching found
    ∧ r = base.withChanges (ownChanges found id)

theorem course_readRecord_ok {r : Record} :
    (readRecord project id).Course es (.ok r) ↔ ReadsRecord project id es r := by
  rw [readRecord, bind_eq, course_andThen_ok]
  constructor
  · rintro ⟨_, _, _ | row, rfl, asked, reading⟩
    · cases reading.2
    · obtain ⟨prepared, reply, rfl, rows⟩ := course_performOptional_ok.mp asked
      obtain ⟨_, _, base, rfl, read, loading⟩ := course_andThen_ok.mp reading
      obtain ⟨rfl, shown⟩ := course_read_ok.mp read
      obtain ⟨fetching, _, found, rfl, fetched, rfl, same⟩ := course_andThen_ok.mp loading
      refine ⟨prepared, reply, row, base, fetching, found, by simp, rows, shown,
        course_readChanges_ok.mp fetched, ?_⟩
      rw [← changesOf_eq_ownChanges]
      exact Except.ok.inj same
  · rintro ⟨prepared, reply, row, base, fetching, found, rfl, rows, shown, fetched, rfl⟩
    refine ⟨_, _, some row, rfl, course_performOptional_ok.mpr ⟨prepared, reply, rfl, rows⟩, ?_⟩
    refine course_andThen_ok.mpr ⟨[], _, base, rfl, course_read_ok.mpr ⟨rfl, shown⟩, ?_⟩
    rw [← changesOf_eq_ownChanges]
    exact course_andThen_ok.mpr ⟨_, [], found, (List.append_nil _).symm,
      course_readChanges_ok.mpr fetched, rfl, rfl⟩

/-- The exchanges of a transaction that ends in reading a record. -/
def Answers (project id : Id) (es : List Exchange) (r : Record) : Prop :=
  ∃ before reading kept, es = before ++ reading ++ [⟨.commit, .ok kept⟩] ∧ ReadsRecord project id reading r

/-- Whether a dialogue that succeeds ends in another and has its result. -/
def Dialogue.EndsIn {α : Type} (last d : Dialogue α) : Prop :=
  ∀ es a, d.Course es (.ok a) → ∃ before reading, es = before ++ reading ∧ last.Course reading (.ok a)

namespace Dialogue.EndsIn

variable {α β : Type} {last : Dialogue α}

theorem refl : last.EndsIn last := fun es _ course => ⟨[], es, rfl, course⟩

theorem fails (e : Error) : last.EndsIn (done (.error e)) := fun _ _ course => by cases course.2

theorem andThen {d : Dialogue β} {f : β → Dialogue α} (ends : ∀ b, last.EndsIn (f b)) :
    last.EndsIn (d.andThen f) := by
  intro es a course
  obtain ⟨first, _, b, rfl, -, rest⟩ := course_andThen_ok.mp course
  obtain ⟨before, reading, rfl, ending⟩ := ends b _ a rest
  exact ⟨first ++ before, reading, (List.append_assoc ..).symm, ending⟩

end Dialogue.EndsIn

theorem answers_of_course {doing : String} {work : Dialogue Record}
    (ends : (readRecord project id).EndsIn work) {r : Record}
    (course : (connect.andThen fun _ => transaction doing work).Course es (.ok r)) :
    Answers project id es r := by
  obtain ⟨connected, begun, _, kept, rfl, worked⟩ := course_conducted_ok.mp course
  obtain ⟨before, reading, rfl, read⟩ := ends _ r worked
  exact ⟨⟨.connection, .ok connected⟩ :: ⟨.begin, .ok begun⟩ :: before, reading, kept, by simp,
    course_readRecord_ok.mp read⟩

/-- Changes are asked about one record with one statement. -/
theorem ReadsRecord.length {r : Record} (reads : ReadsRecord project id es r) : es.length = 4 := by
  obtain ⟨prepared, reply, row, base, fetching, found, rfl, -, -, fetched, -⟩ := reads
  rw [Fetches, if_neg (List.cons_ne_nil _ _)] at fetched
  obtain ⟨_, _, rfl, -⟩ := fetched
  rfl

theorem Answers.unique {q r : Record} (first : Answers project id es q) (second : Answers project id es r) :
    q = r := by
  obtain ⟨before, reading, kept, rfl, reads⟩ := first
  obtain ⟨_, others, _, same, reads'⟩ := second
  obtain ⟨same, -⟩ := List.append_inj' same rfl
  obtain ⟨-, rfl⟩ := List.append_inj' same (reads.length.trans reads'.length.symm)
  exact Except.ok.inj (course_unique (course_readRecord_ok.mpr reads) (course_readRecord_ok.mpr reads'))

/-- Whether a record is got in a transaction that ends in reading it, and in nothing else. -/
def Gets (project id : Id) (d : Dialogue Record) : Prop :=
  ∀ es result, d.Course es result → ∀ r, result = .ok r ↔ Answers project id es r

/-- A transaction has a result when it is committed, so that its last exchanges tell whether it has one. -/
theorem gets_of_answers {d : Dialogue Record} {q : AuditTrail.Request} {text : String}
    (transacts : Transacts .default q text)
    (handled : (store .default).handle q = d.andThen fun r => done (.ok (.record r)))
    (answers : ∀ es r, d.Course es (.ok r) → Answers project id es r) : Gets project id d := by
  intro es result course r
  constructor
  · rintro rfl
    exact answers es r course
  · intro answer
    have whole := transacts es _ (handled ▸ course_map_of Answer.record course)
    have committed : ∃ kept, ⟨.commit, .ok kept⟩ ∈ es := by
      obtain ⟨_, _, kept, rfl, -⟩ := answer
      exact ⟨kept, by simp⟩
    obtain ⟨_, succeeded⟩ := whole.ok_iff.mpr committed
    obtain ⟨a, rfl, -⟩ := map_eq_ok succeeded
    exact congrArg Except.ok ((answers es a course).unique answer)

theorem gets_getRecord (project id : Id) : Gets project id (getRecord project id) :=
  gets_of_answers transacts_getRecord rfl fun _ _ course => answers_of_course (.andThen fun _ => .refl) course

theorem gets_updateRecord (project id : Id) (u : RecordUpdate) :
    Gets project id (updateRecord project id u) := by
  by_cases none : u.isEmpty = true
  · intro es result course r
    rw [updateRecord, if_pos none] at course
    obtain ⟨rfl, rfl⟩ := course
    refine iff_of_false (by simp) ?_
    rintro ⟨before, reading, kept, same, -⟩
    simp at same
  · refine gets_of_answers (transacts_updateRecord (Bool.eq_false_iff.mpr none)) rfl fun es r course => ?_
    rw [updateRecord, if_neg none] at course
    refine answers_of_course (.andThen fun p => ?_) course
    dsimp only
    split
    · exact .fails _
    refine .andThen fun reply => ?_
    split
    · exact .fails _
    cases u.resource with
    | none => exact .refl
    | some resource => exact .andThen fun _ => .andThen fun _ => .refl

/-! On a line to a server -/

/-- What comes of listing a page of records on a line. -/
structure ListsOn {σ : Type} (peer : Peer σ) (l : Line) (s : σ) (project : Id) (filter : RecordFilter)
    (limit : Nat) (cursor : RecordCursor) (key : Option (Instant × Id)) : Prop where
  /-- A page that is listed comes of rows that were shown. -/
  shown : ∀ records, (l.run peer (listRecords project filter limit cursor) s).1 = .ok records →
    ∃ base found, Lists project filter limit key
      (l.exchanges peer (listRecords project filter limit cursor) s) base found
  /-- Rows that are shown make a page, in their order, with the changes that belong to each record. -/
  grouped : ∀ base found, Lists project filter limit key
      (l.exchanges peer (listRecords project filter limit cursor) s) base found →
    (base.map (·.id)).Nodup → (l.run peer (listRecords project filter limit cursor) s).1
      = .ok (base.map fun r => r.withChanges (ownChanges found r.id))
  /-- Whatever the identifiers are, a change found for a record of the page is in it, and once. -/
  kept : ∀ base found, Lists project filter limit key
      (l.exchanges peer (listRecords project filter limit cursor) s) base found →
    ∃ records, (l.run peer (listRecords project filter limit cursor) s).1 = .ok records
      ∧ (Record.allChanges records).Perm (found.filter (·.1 ∈ base.map (·.id)))
  /-- Where no rows are shown, nothing is asked about changes. -/
  silent : ∀ reply, ⟨.execute (.statement (.select (.records project filter limit key))), .ok reply⟩
      ∈ l.exchanges peer (listRecords project filter limit cursor) s → reply.rows = [] →
    ∀ x ∈ l.exchanges peer (listRecords project filter limit cursor) s,
      x.request.table? ≠ some .changes

theorem listsOn {σ : Type} (peer : Peer σ) (l : Line) (s : σ) (project : Id) (filter : RecordFilter)
    (limit : Nat) {cursor : RecordCursor} {key : Option (Instant × Id)}
    (complete : cursor.keyset = .ok key) : ListsOn peer l s project filter limit cursor key := by
  have course := l.course_exchanges peer (listRecords project filter limit cursor) s
  have page {base found} (lists : Lists project filter limit key
      (l.exchanges peer (listRecords project filter limit cursor) s) base found) :
      (l.run peer (listRecords project filter limit cursor) s).1 = .ok (Record.attach found base) :=
    course_unique course ((course_listRecords_ok complete).mpr ⟨base, found, lists, rfl⟩)
  constructor
  · intro records listed
    rw [listed] at course
    obtain ⟨base, found, lists, -⟩ := (course_listRecords_ok complete).mp course
    exact ⟨base, found, lists⟩
  · intro base found lists distinct
    rw [page lists, Record.attach_eq_map distinct]
    simp only [changesOf_eq_ownChanges]
  · intro base found lists
    exact ⟨_, page lists, Record.allChanges_attach found base⟩
  · intro reply shown empty
    exact silent_of_course_listRecords complete course shown empty

/-- The changes that a server returns come with the records that they belong to, none is lost, given twice
or moved, and a page without records asks for none. A record that is got alone, or after an update, has the
changes that bear its identifier. -/
theorem changes_come_with_their_records {σ : Type} (peer : Peer σ) (l : Line) (s : σ) (project : Id) :
    (∀ filter limit cursor key, RecordCursor.keyset cursor = .ok key →
      ListsOn peer l s project filter limit cursor key)
    ∧ ∀ id r, ((l.run peer (getRecord project id) s).1 = .ok r
        ↔ Answers project id (l.exchanges peer (getRecord project id) s) r)
      ∧ ∀ u, (l.run peer (updateRecord project id u) s).1 = .ok r
        ↔ Answers project id (l.exchanges peer (updateRecord project id u) s) r :=
  ⟨fun filter limit _ _ complete => listsOn peer l s project filter limit complete,
    fun id r => ⟨gets_getRecord project id _ _ (l.course_exchanges peer _ s) r,
      fun u => gets_updateRecord project id u _ _ (l.course_exchanges peer _ s) r⟩⟩

/-- Two records whose changes come mixed up, with one of a record that is not in the page. -/
theorem changes_come_with_their_records_mixed :
    let shown (n : Nat) : Record := { (default : Record) with
      id := .ofNat n, project := .ofNat 7, createTime := .epoch }
    let row (n : Nat) : Row := ((shown n).entries (.ofNat 7) .epoch).map fun (c, v) => (c, v.datum)
    let change (name : String) : Change := ⟨name, none, none, none⟩
    let changeRow (n : Nat) (name : String) : Row := [(.recordId, .id (.ofNat n)), (.name, .text name),
      (.description, .null), (.oldValue, .null), (.newValue, .null)]
    let page : Reply := ⟨[row 9, row 8], 0⟩
    let changes : Reply :=
      ⟨[changeRow 8 "a", changeRow 9 "b", changeRow 6 "c", changeRow 8 "d"], 0⟩
    let script : Script := ⟨.welcome, .ok .empty, .ok .empty,
      [.answer (.ok ⟨[[]], 0⟩), .answer (.ok page), .answer (.ok changes)]⟩
    ((Line.idle .default).run (Peer.scripted true)
      (listRecords (.ofNat 7) default 10 .start) script).1
      = .ok [(shown 9).withChanges [change "b"], (shown 8).withChanges [change "a", change "d"]] := by
  intro shown row change changeRow page changes script
  have lists := (changes_come_with_their_records (Peer.scripted true) (Line.idle .default) script
    (.ofNat 7)).1 default 10 .start none rfl
  let found : List (Id × Change) := [(.ofNat 8, change "a"), (.ofNat 9, change "b"),
    (.ofNat 6, change "c"), (.ofNat 8, change "d")]
  have asked : Lists (.ofNat 7) default 10 none ((Line.idle .default).exchanges (Peer.scripted true)
      (listRecords (.ofNat 7) default 10 .start) script) [shown 9, shown 8] found := by
    refine ⟨.empty, .empty, .empty, ⟨[[]], 0⟩, .empty, page,
      answered (.statement (.select (.changes (.ofNat 7) [.ofNat 9, .ofNat 8]))) .empty changes, .empty,
      by decide +kernel, rfl, by decide +kernel, ?_⟩
    rw [Fetches, if_neg (by simp)]
    exact ⟨.empty, changes, rfl, rfl⟩
  exact lists.grouped _ _ asked (by decide)

end AuditTrail.Server
