import AuditTrail.Proofs.Server.Partition
import AuditTrail.Proofs.Server.Tables
import Mathlib.Data.List.Nodup

/-! What the statements and scripts of a store do to tables, one by one: which rows they answer with, and
which projects, records and changes the tables hold afterwards. -/
namespace AuditTrail.Server

/-! Rows that are chosen -/

section Choosing

variable {α β : Type} {encode : α → Row} {l : List α} {p : α → Bool}

theorem map_restrict (f : α → β) (l : List α) (b : Bound) :
    (restrict l b).map f = restrict (l.map f) b := by
  cases b <;> simp [restrict]

/-- Encoded rows are told apart by what is told of the things that they stand for. -/
theorem filter_meets {conditions : List Condition} (told : ∀ a ∈ l, meets conditions (encode a) = p a) :
    (l.map encode).filter (meets conditions) = (l.filter p).map encode := by
  rw [List.filter_map]
  exact congrArg (List.map encode) (List.filter_congr told)

theorem filter_not_meets {conditions : List Condition} (told : ∀ a, meets conditions (encode a) = p a) :
    ((l.map encode).filter fun row => !meets conditions row) = (l.filter (!p ·)).map encode := by
  rw [List.filter_map]
  exact congrArg (List.map encode) (List.filter_congr fun a _ => congrArg (!·) (told a))

/-- An update of encoded rows is one of the things that they stand for. -/
theorem map_setAll {conditions : List Condition} {entries : List (Column × Value)} {change : α → α}
    {hit : α → Prop} [DecidablePred hit] (told : ∀ a, meets conditions (encode a) = decide (hit a))
    (changed : ∀ a, (encode a).setAll entries = encode (change a)) :
    ((l.map encode).map fun row => if meets conditions row then row.setAll entries else row)
      = (l.map fun a => if hit a then change a else a).map encode := by
  rw [List.map_map, List.map_map]
  refine List.map_congr_left fun a _ => ?_
  simp only [Function.comp_apply, told, changed, decide_eq_true_eq]
  split <;> rfl

theorem chosen_map (encode : α → Row) (before : α → α → Prop) [DecidableRel before] {s : Selection}
    (keep : ∀ a ∈ l, meets s.conditions (encode a) = p a)
    (order : ∀ a ∈ l, ∀ b ∈ l, precedes s.order (encode a) (encode b) = true ↔ before a b) :
    chosen s (l.map encode) = (restrict (inOrder before (l.filter p)) s.bound).map fun a =>
      (encode a).only s.columns := by
  have sorted : (inOrder before (l.filter p)).map encode
      = inOrder (fun a b => precedes s.order a b = true) ((l.filter p).map encode) :=
    map_inOrder fun a first b second =>
      order a (List.mem_filter.mp first).1 b (List.mem_filter.mp second).1
  rw [chosen, filter_meets keep, ← sorted, ← map_restrict, List.map_map]
  rfl

/-- Without an order, rows are chosen as they stand. -/
theorem chosen_plain {conditions : List Condition} (keep : ∀ a ∈ l, meets conditions (encode a) = p a)
    (columns : List Column) (t : Table) : chosen (.plain columns t conditions) (l.map encode)
      = (l.filter p).map fun a => (encode a).only columns := by
  have whole := chosen_map encode (fun _ _ => False) (s := .plain columns t conditions) keep
    fun a _ b _ => by simp [Selection.plain, precedes]
  rw [whole, inOrder_eq_self (List.pairwise_of_forall fun _ _ => not_false)]
  rfl

/-- The row that is chosen by a key, if there is one. -/
theorem chosen_unique [DecidableEq β] {key : α → β} (distinct : (l.map key).Nodup) {k : β}
    {conditions : List Condition} (keep : ∀ a, meets conditions (encode a) = decide (key a = k))
    (columns : List Column) (t : Table) : chosen (.plain columns t conditions) (l.map encode)
      = ((l.find? (key · = k)).map fun a => (encode a).only columns).toList := by
  rw [chosen_plain (fun a _ => keep a), filter_eq_find? distinct]
  cases l.find? (key · = k) <;> rfl

end Choosing

/-! Values that fit -/

theorem Value.fits {v : Value} (plain : v.Plain) : v.datum.Fits := by
  cases v with
  | flag f => cases f <;> exact trivial
  | text | map | integer => exact plain
  | null | id | ids | instant | count | bytes => exact trivial

section Running

variable {numbering : Numbering} {db : Database}

theorem run_select {s : Selection} (plain : ∀ c ∈ s.conditions, c.value.Plain) {rows : List Row}
    (answer : chosen s (db s.table) = rows) :
    db.run numbering (.select s) = some (⟨rows, 0⟩, db) := by
  rw [← answer]
  refine if_pos ?_
  simp only [Statement.written, Statement.conditions, List.map_nil, List.nil_append, List.forall_mem_map]
  exact fun c mem => Value.fits (plain c mem)

theorem run_insert {t : Table} {entries : List (Column × Value)} {returning : List Column}
    (plain : PlainEntries entries) : db.run numbering (.insert t entries returning)
      = db.insert numbering t entries returning := by
  refine if_pos ?_
  simp only [Statement.written, Statement.conditions, List.map_nil, List.append_nil, List.forall_mem_map]
  exact fun e mem => Value.fits (plain e mem)

theorem run_update {t : Table} {entries : List (Column × Value)} {conditions : List Condition}
    {returning : List Column} (plain : PlainEntries entries)
    (known : ∀ c ∈ conditions, c.value.Plain) :
    db.run numbering (.update t entries conditions returning)
      = some (db.update t entries conditions returning) := by
  refine if_pos ?_
  simp only [Statement.written, Statement.conditions, List.forall_mem_append, List.forall_mem_map]
  exact ⟨fun e mem => Value.fits (plain e mem), fun c mem => Value.fits (known c mem)⟩

theorem run_delete {t : Table} {conditions : List Condition}
    (plain : ∀ c ∈ conditions, c.value.Plain) :
    db.run numbering (.delete t conditions) = db.delete t conditions := by
  refine if_pos ?_
  simp only [Statement.written, Statement.conditions, List.map_nil, List.nil_append, List.forall_mem_map]
  exact fun c mem => Value.fits (plain c mem)

/-- Only the deletion of projects is ever refused. -/
theorem delete_rows {t : Table} (other : t ≠ .projects) (conditions : List Condition) :
    db.delete t conditions = some (⟨[], ((db t).filter (meets conditions)).length⟩,
      db.put t ((db t).filter fun row => !meets conditions row)) := by
  simp [Database.delete, other]

end Running

namespace Tables

variable (numbering : Numbering) {T : Tables}

/-! Tables with other rows -/

theorem put_projects (projects : List (Int × Project)) :
    T.database.put .projects (projects.map projectRow) = Tables.database { T with projects } := by
  funext t
  cases t <;> rfl

theorem put_records (records : List Record) :
    T.database.put .records (records.map recordRow) = Tables.database { T with records } := by
  funext t
  cases t <;> rfl

theorem put_changes (changes : List Placed) :
    T.database.put .changes (changes.map changeRow) = Tables.database { T with changes } := by
  funext t
  cases t <;> rfl

theorem setAll_projectRow (u : ProjectUpdate) (e : Int × Project) :
    (projectRow e).setAll u.entries = projectRow (e.1, u.apply e.2) := by
  rcases u with ⟨_ | _, _ | _, _ | _⟩ <;> rfl

theorem setAll_recordRow (u : RecordUpdate) (r : Record) :
    (recordRow r).setAll u.entries = recordRow (u.apply r) := by
  rcases u with ⟨_ | _, _ | _, _ | _, _ | _⟩ <;> rfl

/-! Statements that choose -/

theorem run_selectProject (distinct : (T.projects.map (·.2.id)).Nodup) (id : Id)
    (columns : List Column) (locking : Bool) : T.database.run numbering
      (.select { Selection.plain columns .projects [.project id] with locking })
      = some (⟨((T.projects.find? (·.2.id = id)).map fun e => (projectRow e).only columns).toList, 0⟩,
        T.database) := by
  exact run_select (by simp [Selection.plain, Condition.project, Condition.value, Value.Plain])
    (chosen_unique distinct (fun e => meets_project e id) columns .projects)

theorem run_selectProjects (limit : Nat) (cursor : ProjectCursor) :
    T.database.run numbering (.select (.projects limit cursor))
      = some (⟨((inOrder Project.Precedes ((T.projects.map (·.2)).filter cursor.admits)).take limit).map
        fun p => Row.ofEntries p.entries, 0⟩, T.database) := by
  have plain : ∀ c ∈ (Selection.projects limit cursor).conditions, c.value.Plain := by
    rcases cursor with ⟨_ | id⟩ <;> simp [Selection.projects, Condition.value, Value.Plain]
  have sorted : (inOrder (fun a b : Int × Project => a.2.Precedes b.2)
        (T.projects.filter fun e => cursor.admits e.2)).map (·.2)
      = inOrder Project.Precedes ((T.projects.map (·.2)).filter cursor.admits) := by
    rw [List.filter_map]
    exact map_inOrder fun _ _ _ _ => Iff.rfl
  refine run_select plain ?_
  have rows := chosen_map projectRow (fun a b : Int × Project => a.2.Precedes b.2)
    (s := .projects limit cursor) (l := T.projects) (fun e _ => meets_cursor e cursor limit)
    fun a _ b _ => precedes_projectRow a b
  rw [← sorted, ← List.map_take, List.map_map]
  exact rows

theorem run_selectRecord (distinct : (T.records.map Record.key).Nodup) (project id : Id) :
    T.database.run numbering (.select (.record project id))
      = some (⟨((T.records.find? (·.key = (project, id))).map recordRow).toList, 0⟩, T.database) := by
  exact run_select (by simp [Selection.record, Selection.plain, Condition.ofProject, Condition.value,
    Value.Plain]) (chosen_unique distinct (fun r => meets_record r project id) Column.ofRecord .records)

theorem run_selectRecords (plain : ∀ r ∈ T.records, r.Plain) {project : Id} {f : RecordFilter}
    {limit : Nat} {cursor : RecordCursor} (request : (Request.listRecords project f limit cursor).Plain)
    {key : Option (Instant × Id)} (complete : cursor.keyset = .ok key) :
    T.database.run numbering (.select (.records project f limit key))
      = some (⟨((inOrder Record.Precedes (T.records.filter fun r =>
        r.project = project && (f.admits r && cursor.admits r))).take limit).map recordRow, 0⟩,
        T.database) := by
  have sendable : ∀ c ∈ (Selection.records project f limit key).conditions, c.value.Plain := by
    obtain ⟨filtered, dated⟩ := request
    simp only [Selection.records, List.cons_append, List.forall_mem_cons, List.forall_mem_append]
    refine ⟨trivial, filtered, ?_⟩
    rcases cursor with ⟨_ | t, _ | i⟩ <;> cases complete
    · simp [Selection.after]
    · simp [Selection.after, Condition.value, Value.Plain, dated t rfl]
  exact run_select sendable (chosen_map recordRow Record.Precedes
    (s := .records project f limit key) (fun r mem => meets_page (plain r mem) request complete)
    fun a first b second => precedes_recordRow (plain a first) (plain b second))

theorem run_selectChanges (project : Id) (records : List Id) :
    T.database.run numbering (.select (.changes project records))
      = some (⟨(inOrder Placed.Precedes (T.changes.filter fun c =>
        c.project = project ∧ c.record ∈ records)).map fun c => (changeRow c).only Column.ofChange, 0⟩,
        T.database) := by
  exact run_select (by simp [Selection.changes, Condition.ofProject, Condition.value, Value.Plain])
    (chosen_map changeRow Placed.Precedes (l := T.changes) (s := .changes project records)
      (fun c _ => meets_among c project records) fun a _ b _ => precedes_changeRow a b)

/-! Statements that write -/

/-- A row more at the end of a table. -/
theorem put_append_project (e : Int × Project) :
    T.database.put .projects (T.database .projects ++ [projectRow e])
      = Tables.database { T with projects := T.projects ++ [e] } := by
  have rows : (T.projects ++ [e]).map projectRow = T.database .projects ++ [projectRow e] := List.map_append
  rw [← rows, put_projects]

theorem put_append_record (r : Record) :
    T.database.put .records (T.database .records ++ [recordRow r])
      = Tables.database { T with records := T.records ++ [r] } := by
  have rows : (T.records ++ [r]).map recordRow = T.database .records ++ [recordRow r] := List.map_append
  rw [← rows, put_records]

theorem put_append_change (c : Placed) :
    T.database.put .changes (T.database .changes ++ [changeRow c])
      = Tables.database { T with changes := T.changes ++ [c] } := by
  have rows : (T.changes ++ [c]).map changeRow = T.database .changes ++ [changeRow c] := List.map_append
  rw [← rows, put_changes]

theorem run_insertProject {p : Project} (plain : PlainEntries p.entries) :
    T.database.run numbering (.insertProject p [.partitionNumber]) =
      if T.projects.any (·.2.id = p.id) then none
      else some (⟨[(projectRow (numbering.next T.database, p)).only [.partitionNumber]], 1⟩,
        Tables.database { T with projects := T.projects ++ [(numbering.next T.database, p)] }) := by
  have row : Database.newRow numbering T.database .projects p.entries
      = projectRow (numbering.next T.database, p) := rfl
  have clashes : (T.database .projects).any
        (clash .projects (projectRow (numbering.next T.database, p)))
      = T.projects.any (·.2.id = p.id) := by
    simp [Tables.database, clash, primaryKey, eq_comm, Function.comp_def]
  rw [Statement.insertProject, run_insert plain]
  simp only [Database.insert, row, clashes, put_append_project, reduceCtorEq, decide_false,
    Bool.false_and, Bool.false_eq_true, if_false]
  rfl

/-- A record is refused if its key is taken or its project is not there. -/
theorem run_insertRecord {r : Record} (plain : r.Plain) :
    T.database.run numbering (.insertRecord r.project r.createTime r) =
      if T.records.any (·.key = r.key) then none
      else if !T.projects.any (·.2.id = r.project) then none
      else some (⟨[], 1⟩, Tables.database { T with records := T.records ++ [r] }) := by
  have row : Database.newRow numbering T.database .records (r.entries r.project r.createTime)
      = recordRow r := rfl
  have clashes : (T.database .records).any (clash .records (recordRow r))
      = T.records.any (·.key = r.key) := by
    simp [Tables.database, clash, primaryKey, Record.key, eq_comm, Function.comp_def]
  have owned : (T.database .projects).any (refersTo (recordRow r))
      = T.projects.any (·.2.id = r.project) := by
    simp [Tables.database, refersTo, eq_comm, Function.comp_def]
  rw [Statement.insertRecord, run_insert plain.values]
  simp only [Database.insert, row, clashes, owned, put_append_record, decide_true, Bool.true_and]
  rfl

theorem run_insertChange {c : Placed} (plain : PlainEntries c.entries)
    (free : ∀ x ∈ T.changes, x.owner = c.owner → x.position ≠ c.position) :
    T.database.run numbering (.insertChange c.project c.record c.position c.change)
      = some (⟨[], 1⟩, Tables.database { T with changes := T.changes ++ [c] }) := by
  have row : Database.newRow numbering T.database .changes c.entries = changeRow c := rfl
  have clashes : (T.database .changes).any (clash .changes (changeRow c)) = false := by
    simp only [Tables.database, List.any_map, List.any_eq_false]
    intro x mem
    have apart := free x mem
    simp only [Placed.owner, Prod.mk.injEq] at apart
    simp only [Function.comp_apply, clash, primaryKey, List.isEmpty_cons, Bool.not_false, Bool.true_and,
      List.all_cons, List.all_nil, Bool.and_true, changeRow_project, changeRow_record,
      changeRow_position, Datum.id.injEq, Datum.integer.injEq, true_and, Bool.and_eq_true,
      decide_eq_true_eq]
    rintro ⟨project, record, position⟩
    exact apart ⟨project.symm, record.symm⟩ (by omega)
  have statement : Statement.insertChange c.project c.record c.position c.change
      = .insert .changes c.entries [] := rfl
  rw [statement, run_insert plain]
  simp only [Database.insert, row, clashes, put_append_change, reduceCtorEq, decide_false,
    Bool.false_and, Bool.false_eq_true, if_false]
  rfl

theorem run_updateProject {u : ProjectUpdate} (plain : PlainEntries u.entries)
    (distinct : (T.projects.map (·.2.id)).Nodup) (id : Id) :
    ∃ n, T.database.run numbering (.updateProject id u)
      = some (⟨((T.projects.find? (·.2.id = id)).map fun e =>
          Row.ofEntries (u.apply e.2).entries).toList, n⟩,
        Tables.database { T with projects := T.projects.map fun e =>
          if e.2.id = id then (e.1, u.apply e.2) else e }) := by
  have hit : (T.database .projects).filter (meets [.project id])
      = (T.projects.find? (·.2.id = id)).toList.map projectRow := by
    rw [← filter_eq_find? distinct]
    exact filter_meets fun e _ => meets_project e id
  have rows : Database.returned Column.ofProject
        (((T.projects.find? (·.2.id = id)).toList.map projectRow).map (Row.setAll u.entries))
      = ((T.projects.find? (·.2.id = id)).map fun e => Row.ofEntries (u.apply e.2).entries).toList := by
    cases T.projects.find? (·.2.id = id) with
    | none => rfl
    | some e => exact congrArg (fun row : Row => [row.only Column.ofProject]) (setAll_projectRow u e)
  have changed : ((T.database .projects).map fun row =>
        if meets [.project id] row then row.setAll u.entries else row)
      = (T.projects.map fun e => if e.2.id = id then (e.1, u.apply e.2) else e).map projectRow :=
    map_setAll (fun e => meets_project e id) (setAll_projectRow u)
  rw [Statement.updateProject,
    run_update plain (by simp [Condition.project, Condition.value, Value.Plain])]
  refine ⟨((T.projects.find? (·.2.id = id)).toList.map projectRow).length, ?_⟩
  simp only [Database.update, hit, rows, changed, put_projects]

theorem run_updateRecord {u : RecordUpdate} (plain : u.Plain) (project id : Id) :
    T.database.run numbering (.updateRecord project id u)
      = some (⟨[], (T.records.filter (·.key = (project, id))).length⟩,
        Tables.database { T with records := T.records.map fun r =>
          if r.key = (project, id) then u.apply r else r }) := by
  have hit : (T.database .records).filter (meets [.ofProject project, .equals .id (.id id)])
      = (T.records.filter (·.key = (project, id))).map recordRow :=
    filter_meets fun r _ => meets_record r project id
  have changed : ((T.database .records).map fun row =>
        if meets [.ofProject project, .equals .id (.id id)] row then row.setAll u.entries else row)
      = (T.records.map fun r => if r.key = (project, id) then u.apply r else r).map recordRow :=
    map_setAll (fun r => meets_record r project id) (setAll_recordRow u)
  rw [Statement.updateRecord,
    run_update plain.values (by simp [Condition.ofProject, Condition.value, Value.Plain])]
  simp only [Database.update, hit, changed, put_records, List.length_map]
  rfl

/-! Statements that remove -/

/-- Rows of records or changes that are removed by what can be told of each. -/
theorem run_removeRecords {conditions : List Condition} {p : Record → Bool}
    (plain : ∀ c ∈ conditions, c.value.Plain)
    (told : ∀ r, meets conditions (recordRow r) = p r) : ∃ reply,
    T.database.run numbering (.delete .records conditions)
      = some (reply, Tables.database { T with records := T.records.filter (!p ·) }) := by
  have kept : ((T.database .records).filter fun row => !meets conditions row)
      = (T.records.filter (!p ·)).map recordRow := filter_not_meets told
  rw [run_delete plain, delete_rows (by decide), kept, put_records]
  exact ⟨_, rfl⟩

theorem run_removeChanges {conditions : List Condition} {p : Placed → Bool}
    (plain : ∀ c ∈ conditions, c.value.Plain)
    (told : ∀ c, meets conditions (changeRow c) = p c) : ∃ reply,
    T.database.run numbering (.delete .changes conditions)
      = some (reply, Tables.database { T with changes := T.changes.filter (!p ·) }) := by
  have kept : ((T.database .changes).filter fun row => !meets conditions row)
      = (T.changes.filter (!p ·)).map changeRow := filter_not_meets told
  rw [run_delete plain, delete_rows (by decide), kept, put_changes]
  exact ⟨_, rfl⟩

theorem run_deleteRecord (project id : Id) : ∃ reply,
    T.database.run numbering (.deleteRecord project id)
      = some (reply, Tables.database { T with
        records := T.records.filter fun r => !decide (r.key = (project, id)) }) :=
  run_removeRecords numbering (by simp [Condition.ofProject, Condition.value, Value.Plain])
    fun r => meets_record r project id

theorem run_deleteRecords (project : Id) : ∃ reply,
    T.database.run numbering (.deleteRecords project)
      = some (reply, Tables.database { T with
        records := T.records.filter fun r => !decide (r.project = project) }) :=
  run_removeRecords numbering (by simp [Condition.ofProject, Condition.value, Value.Plain])
    fun r => meets_recordOf r project

theorem run_deleteChanges (project record : Id) : ∃ reply,
    T.database.run numbering (.deleteChanges project record)
      = some (reply, Tables.database { T with
        changes := T.changes.filter fun c => !decide (c.owner = (project, record)) }) :=
  run_removeChanges numbering (by simp [Condition.ofProject, Condition.value, Value.Plain])
    fun c => meets_changeOfRecord c project record

theorem run_deleteProjectChanges (project : Id) : ∃ reply,
    T.database.run numbering (.deleteProjectChanges project)
      = some (reply, Tables.database { T with
        changes := T.changes.filter fun c => !decide (c.project = project) }) :=
  run_removeChanges numbering (by simp [Condition.ofProject, Condition.value, Value.Plain])
    fun c => meets_changeOf c project

/-- A project without records can be deleted. -/
theorem run_deleteProject {id : Id} (unused : ∀ r ∈ T.records, r.project ≠ id) : ∃ reply,
    T.database.run numbering (.deleteProject id)
      = some (reply, Tables.database { T with
        projects := T.projects.filter fun e => !decide (e.2.id = id) }) := by
  have kept : ((T.database .projects).filter fun row => !meets [.project id] row)
      = (T.projects.filter fun e => !decide (e.2.id = id)).map projectRow :=
    filter_not_meets fun e => meets_project e id
  have free : ((T.database .records).any fun r =>
      ((T.database .projects).filter (meets [.project id])).any (refersTo r)) = false := by
    rw [List.any_eq_false]
    intro row mem bad
    obtain ⟨r, stored, rfl⟩ := List.mem_map.mp mem
    obtain ⟨p, gone, refers⟩ := List.any_eq_true.mp bad
    obtain ⟨there, named⟩ := List.mem_filter.mp gone
    obtain ⟨e, -, rfl⟩ := List.mem_map.mp there
    rw [meets_project, decide_eq_true_eq] at named
    have same : Datum.id r.project = .id e.2.id := of_decide_eq_true refers
    exact unused r stored ((Datum.id.inj same).trans named)
  rw [Statement.deleteProject, run_delete (by simp [Condition.project, Condition.value, Value.Plain])]
  simp only [Database.delete, free, kept, put_projects, Bool.and_false, Bool.false_eq_true, if_false]
  exact ⟨_, rfl⟩

/-! Scripts -/

theorem script_create (q : Partition) (project : Id) :
    T.database.script (q.create project) = T.database := by
  have none (t : Table) (row : Row) : T.database.dropped (q.create project) t row = false := by
    simp only [Database.dropped, List.any_eq_false, Bool.and_eq_true]
    rintro p - ⟨-, named⟩
    split at named
    · exact Partition.create_ne_drop _ _ _ (of_decide_eq_true named)
    · contradiction
  funext t
  simp [Database.script, none]

/-- A partition that is dropped holds the rows of the project with its number. -/
theorem dropped_iff (numbers : (T.projects.map (·.1)).Nodup) {e : Int × Project}
    (mem : e ∈ T.projects) {t u : Table} (row : Row) :
    T.database.dropped (Partition.drop ⟨u.name, e.1⟩) t row = true
      ↔ u = t ∧ row.get .projectId = .id e.2.id := by
  simp only [Database.dropped, Tables.database, List.any_map, List.any_eq_true, Function.comp_apply,
    refersTo, projectRow_id, projectRow_number, Bool.and_eq_true, decide_eq_true_eq]
  constructor
  · rintro ⟨x, there, owned, same⟩
    obtain ⟨table, number⟩ := Partition.mk.inj (Partition.drop_injective same)
    have one : e = x := List.inj_on_of_nodup_map numbers mem there number
    exact ⟨Table.name_injective table, one ▸ of_decide_eq_true owned⟩
  · rintro ⟨rfl, owned⟩
    exact ⟨e, mem, decide_eq_true owned, rfl⟩

/-- The rows that stay in a table when a partition of one is dropped. -/
theorem script_drop (numbers : (T.projects.map (·.1)).Nodup) {e : Int × Project} (mem : e ∈ T.projects)
    {t u : Table} (ht : t ∈ Table.partitioned) :
    T.database.script (Partition.drop ⟨u.name, e.1⟩) t
      = (T.database t).filter fun row => !decide (u = t ∧ row.get .projectId = .id e.2.id) := by
  rw [Database.script, if_pos ht]
  refine List.filter_congr fun row _ => congrArg (!·) ?_
  rw [Bool.eq_iff_iff, decide_eq_true_eq]
  exact dropped_iff numbers mem row

theorem script_dropRecords (numbers : (T.projects.map (·.1)).Nodup) {e : Int × Project}
    (mem : e ∈ T.projects) : T.database.script (Partition.drop ⟨Table.records.name, e.1⟩)
      = Tables.database { T with
        records := T.records.filter fun r => !decide (r.project = e.2.id) } := by
  have divided : Table.records ∈ Table.partitioned := by decide
  funext t
  cases t with
  | projects | version => rfl
  | records =>
    rw [script_drop numbers mem divided]
    simp [Tables.database, List.filter_map, Function.comp_def]
  | changes =>
    rw [script_drop numbers mem (by decide)]
    simp [Tables.database]

theorem script_dropChanges (numbers : (T.projects.map (·.1)).Nodup) {e : Int × Project}
    (mem : e ∈ T.projects) : T.database.script (Partition.drop ⟨Table.changes.name, e.1⟩)
      = Tables.database { T with
        changes := T.changes.filter fun c => !decide (c.project = e.2.id) } := by
  have divided : Table.changes ∈ Table.partitioned := by decide
  funext t
  cases t with
  | projects | version => rfl
  | changes =>
    rw [script_drop numbers mem divided]
    simp [Tables.database, List.filter_map, Function.comp_def]
  | records =>
    rw [script_drop numbers mem (by decide)]
    simp [Tables.database]

end Tables

end AuditTrail.Server
