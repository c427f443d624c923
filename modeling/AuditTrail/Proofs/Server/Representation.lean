import AuditTrail.Proofs.Server.Holding

/-! What the operations of a server store come to on a database that holds a ledger: what they come to on
the ledger, and the database holds the ledger afterwards. A batch is written row by row, so what has been
written so far is carried along; that the whole batch can be written is seen from its keys. -/
namespace AuditTrail.Server

/-! Results of operations -/

section Results

variable (numbering : Numbering) {α β : Type}

/-- What work in a transaction comes to, beside a result on ledgers: what is granted leaves tables that
hold the ledger, and what is refused fails for the same reason. -/
inductive Settles (d : Dialogue α) (db : Database) : Except Error (α × Ledger) → Prop
  | granted {a : α} {T : Tables} {m : Ledger} (does : Does numbering d db a T.database)
      (holds : T.Holds m) : Settles d db (.ok (a, m))
  | refused {e : Error} (fails : Fails numbering d db e) : Settles d db (.error e)

/-- What an operation comes to between transactions, beside a result on ledgers. -/
inductive Serves (d : Dialogue α) (db : Database) : Except Error (α × Ledger) → Prop
  | granted {a : α} {T : Tables} {m : Ledger} (holds : T.Holds m)
      (answers : d.carryOut (Engine.answer numbering) ⟨db, .idle⟩ = (.ok a, ⟨T.database, .idle⟩)) :
      Serves d db (.ok (a, m))
  | refused {e f : Error} (same : f.outline = e.outline)
      (fails : d.carryOut (Engine.answer numbering) ⟨db, .idle⟩ = (.error f, ⟨db, .idle⟩)) :
      Serves d db (.error e)

variable {numbering} {d : Dialogue α} {f : α → Dialogue β} {db db' : Database} {a : α} {b : β}
  {y : Except Error (β × Ledger)} {x : Except Error (α × Ledger)}

theorem Does.settles (does : Does numbering d db a db') (then' : Settles numbering (f a) db' y) :
    Settles numbering (d.andThen f) db y := by
  cases then' with
  | granted after holds => exact .granted (does.andThen after) holds
  | refused fails => exact .refused (does.fails fails)

/-- Work that begins by looking at something. -/
theorem Reads.settles {z : Except Error α} {g : α → Except Error (β × Ledger)}
    (reads : Reads numbering d db z) (then' : ∀ a, z = .ok a → Settles numbering (f a) db (g a)) :
    Settles numbering (d.andThen f) db (z >>= g) := by
  cases z with
  | error e => exact .refused reads.fails.andThen
  | ok a => exact Does.settles reads (then' a rfl)

theorem Settles.transaction (settles : Settles numbering d db x) (committing : String) :
    Serves numbering (transaction committing d) db x := by
  cases settles with
  | granted does holds => exact .granted holds (does.transaction _ _)
  | refused fails =>
    obtain ⟨f, same, failed⟩ := fails.transaction (Fault.internal "Failed to begin transaction")
      (Fault.rolledBack committing)
    exact .refused same failed

/-- What is done first leaves the tables as they are. -/
theorem Does.serves (does : Does numbering d db a db) (then' : Serves numbering (f a) db y) :
    Serves numbering (d.andThen f) db y := by
  have first : (d.andThen f).carryOut (Engine.answer numbering) ⟨db, .idle⟩
      = (f a).carryOut (Engine.answer numbering) ⟨db, .idle⟩ := by
    have done := does none
    simp only [Engine.on] at done
    rw [Dialogue.carryOut_andThen, done]
  cases then' with
  | granted holds answers => exact .granted holds (first.trans answers)
  | refused same fails => exact .refused same (first.trans fails)

theorem serves_error (e : Error) (db : Database) :
    Serves numbering (.done (.error e) : Dialogue α) db (.error e) := .refused rfl rfl

theorem Serves.map (serves : Serves numbering d db x) (g : α → β) :
    Serves numbering (d.andThen fun a => .done (.ok (g a))) db (x.map fun p => (g p.1, p.2)) := by
  cases serves with
  | granted holds answers =>
    refine .granted holds ?_
    rw [Dialogue.carryOut_andThen, answers]
    rfl
  | refused same fails =>
    refine .refused same ?_
    rw [Dialogue.carryOut_andThen, fails]

/-- An operation that only reads. -/
theorem Reads.serves {T : Tables} {l : Ledger} {z : Except Error α} (holds : T.Holds l)
    (reads : Reads numbering d T.database z) : Serves numbering d T.database (z.map (·, l)) := by
  cases z with
  | error e => exact .refused rfl (reads none)
  | ok a => exact .granted holds (reads none)

theorem Reads.settled {T : Tables} {l : Ledger} {z : Except Error α} (holds : T.Holds l)
    (reads : Reads numbering d T.database z) : Settles numbering d T.database (z.map (·, l)) := by
  cases z with
  | error e => exact .refused reads.fails
  | ok a => exact .granted reads holds

end Results

variable (numbering : Numbering) {T : Tables} {l : Ledger}

/-! Rows that are written one by one -/

section

variable {numbering} {α : Type} {doing : String} {s : Nat → α → Statement} {a : α} {rest : List α}
  {db db' : Database} {e : Error}

theorem does_insertEach (each : Does numbering (executeEach doing s 0 (a :: rest)) db () db') :
    Does numbering (insertEach doing s (a :: rest)) db () db' :=
  (does_mention _ _).andThen ((does_prepare _ _ _).andThen each)

theorem fails_insertEach (each : Fails numbering (executeEach doing s 0 (a :: rest)) db e) :
    Fails numbering (insertEach doing s (a :: rest)) db e :=
  (does_mention _ _).fails ((does_prepare _ _ _).fails each)

end

theorem plain_placed {project record : Id} {n : Nat} {c : Change} (plain : PlainEntries c.entries)
    (short : n < 2147483648) : PlainEntries (Placed.entries ⟨project, record, n, c⟩) := by
  have place : Short n := ⟨by omega, by omega⟩
  intro e mem
  rcases List.mem_append.mp mem with own | values
  · simp only [List.mem_cons, List.not_mem_nil, or_false] at own
    rcases own with rfl | rfl | rfl
    · exact trivial
    · exact trivial
    · exact place
  · exact plain e values

/-- Changes take the places from `n` on if those before are all that is taken. -/
theorem does_executeChanges (doing : String) (project record : Id) {changes : List Change}
    (plain : ∀ c ∈ changes, PlainEntries c.entries) {n : Nat} (short : n + changes.length ≤ 2147483648)
    (free : ∀ x ∈ T.changes, x.owner = (project, record) → x.position < n) :
    Does numbering (executeEach doing (Statement.insertChange project record) n changes) T.database ()
      (Tables.database { T with changes := T.changes ++ placed project record n changes }) := by
  induction changes generalizing T n with
  | nil =>
    simp only [placed, List.append_nil]
    exact does_done () _
  | cons c rest ih =>
    obtain ⟨first, later⟩ := List.forall_mem_cons.mp plain
    rw [List.length_cons] at short
    have granted := Tables.run_insertChange numbering (T := T) (c := ⟨project, record, n, c⟩)
      (plain_placed first (by omega)) fun x mem own => Nat.ne_of_lt (free x mem own)
    have others := ih (T := { T with changes := T.changes ++ [⟨project, record, n, c⟩] }) later
      (n := n + 1) (by omega) fun x mem own => by
        rcases List.mem_append.mp mem with old | new
        · exact Nat.lt_succ_of_lt (free x old own)
        · rw [List.mem_singleton.mp new]
          exact Nat.lt_succ_self n
    simp only [List.append_assoc, List.singleton_append] at others
    exact (does_execute _ granted).andThen others

theorem does_insertChanges (project record : Id) {changes : List Change} (plain : PlainChanges changes)
    (free : ∀ x ∈ T.changes, x.owner ≠ (project, record)) :
    Does numbering (insertChanges project record changes) T.database ()
      (Tables.database { T with changes := T.changes ++ placed project record 0 changes }) := by
  have each := does_executeChanges numbering "Failed to insert resource change" project
    record plain.values (n := 0) (by have := plain.length_lt; omega)
    fun x mem own => absurd own (free x mem)
  cases changes with
  | nil => exact each
  | cons c rest => exact does_insertEach each

theorem does_deleteChanges (project record : Id) :
    Does numbering (deleteChanges project record) T.database () (Tables.database { T with
      changes := T.changes.filter fun c => !decide (c.owner = (project, record)) }) := by
  obtain ⟨reply, removed⟩ := Tables.run_deleteChanges numbering (T := T) project record
  exact (does_perform _ removed).andThen (does_done () _)

theorem does_insertAllChanges (project : Id) {batch : List Record}
    (together : ∀ r ∈ batch, r.project = project) (plain : ∀ r ∈ batch, PlainChanges r.resource.changes)
    (distinct : (batch.map Record.key).Nodup)
    (free : ∀ x ∈ T.changes, ∀ r ∈ batch, x.owner ≠ r.key) :
    Does numbering (insertAllChanges project batch) T.database ()
      (Tables.database { T with changes := T.changes ++ batch.flatMap changesIn }) := by
  induction batch generalizing T with
  | nil =>
    simp only [List.flatMap_nil, List.append_nil]
    exact does_done () _
  | cons r rest ih =>
    obtain ⟨own, together⟩ := List.forall_mem_cons.mp together
    obtain ⟨first, plain⟩ := List.forall_mem_cons.mp plain
    obtain ⟨fresh, distinct⟩ := List.nodup_cons.mp distinct
    subst own
    have inserted := does_insertChanges numbering r.project r.id first
      fun x mem => free x mem r List.mem_cons_self
    have others := ih (T := { T with changes := T.changes ++ changesIn r }) together plain distinct
      fun x mem y later same => by
        rcases List.mem_append.mp mem with old | new
        · exact free x old y (List.mem_cons_of_mem _ later) same
        · rw [owner_of_mem new] at same
          exact fresh (same ▸ List.mem_map_of_mem later)
    simp only [List.append_assoc, ← List.flatMap_cons] at others
    exact inserted.andThen others

/-- Keys stay different when a record comes whose key is free. -/
theorem nodup_append_record {records : List Record} {r : Record}
    (distinct : (records.map Record.key).Nodup) (free : records.any (·.key = r.key) = false) :
    ((records ++ [r]).map Record.key).Nodup := by
  rw [List.map_append, List.nodup_append]
  refine ⟨distinct, List.pairwise_singleton _ _, ?_⟩
  intro k old j new
  obtain ⟨x, mem, rfl⟩ := List.mem_map.mp old
  rw [List.mem_singleton.mp new]
  exact fun repeated => List.any_eq_false.mp free x mem (decide_eq_true repeated)

theorem not_nodup_of_any {records rest : List Record} {r : Record}
    (taken : records.any (·.key = r.key) = true) :
    ¬ ((records ++ r :: rest).map Record.key).Nodup := by
  obtain ⟨x, mem, repeated⟩ := List.any_eq_true.mp taken
  rw [List.map_append, List.nodup_append]
  rintro ⟨-, -, apart⟩
  exact apart _ (List.mem_map_of_mem mem) _ List.mem_cons_self (of_decide_eq_true repeated)

/-- Records of one project are written if no key repeats. The first whose key is taken is refused. -/
theorem executeRecords (doing : String) {project : Id} {createTime : Instant} {batch : List Record}
    (together : ∀ r ∈ batch, r.project = project)
    (plain : ∀ r ∈ batch, Record.Plain { r with createTime := createTime })
    (present : T.projects.any (·.2.id = project) = true) (keyed : (T.records.map Record.key).Nodup)
    (n : Nat) :
    let work := executeEach doing (fun _ r => Statement.insertRecord project createTime r) n batch
    if ((T.records ++ batch).map Record.key).Nodup then
      Does numbering work T.database () (Tables.database { T with
        records := T.records ++ batch.map fun r => { r with createTime := createTime } })
    else Fails numbering work T.database .inside := by
  induction batch generalizing T n with
  | nil =>
    simp only [List.map_nil, List.append_nil, keyed, if_true]
    exact does_done () _
  | cons r rest ih =>
    obtain ⟨own, together⟩ := List.forall_mem_cons.mp together
    obtain ⟨first, plain⟩ := List.forall_mem_cons.mp plain
    subst own
    let stamped : Record := { r with createTime := createTime }
    have same : ((T.records ++ [stamped]) ++ rest).map Record.key
        = (T.records ++ r :: rest).map Record.key := by
      simp only [List.map_append, List.map_cons, List.map_nil, List.append_assoc]
      rfl
    have granted := Tables.run_insertRecord numbering (T := T) (r := stamped) first
    cases taken : T.records.any (·.key = r.key) with
    | true =>
      rw [show T.records.any (·.key = stamped.key) = true from taken, if_pos rfl] at granted
      rw [if_neg (not_nodup_of_any taken)]
      exact (fails_execute doing granted).andThen
    | false =>
      rw [show T.records.any (·.key = stamped.key) = false from taken, if_neg Bool.false_ne_true,
        present] at granted
      have others := ih (T := { T with records := T.records ++ [stamped] }) together plain present
        (nodup_append_record (r := stamped) keyed taken) (n + 1)
      dsimp only at others
      rw [same] at others
      split at others
      · next distinct =>
        rw [if_pos distinct]
        simp only [List.append_assoc, List.singleton_append] at others
        exact (does_execute _ granted).andThen others
      · next repeated =>
        rw [if_neg repeated]
        exact (does_execute _ granted).fails others

theorem does_scriptEach (doing : String) (text : Partition → String) (ps : List Partition)
    (db : Database) : Does numbering (scriptEach doing text ps) db ()
      (ps.foldl (fun db q => db.script (text q)) db) := by
  induction ps generalizing db with
  | nil => exact does_done () db
  | cons q rest ih =>
    exact (does_script (Fault.internal (doing ++ " " ++ q.name)) (text q) db).andThen (ih _)

/-- Partitions may be created for any number. -/
theorem does_createPartitions (doing : String) (number : Int) (id : Id) :
    Does numbering (scriptEach doing (Partition.create · id) (partitionsOf number)) T.database ()
      T.database := by
  have scripts := does_scriptEach numbering doing (Partition.create · id) (partitionsOf number) T.database
  have same : (partitionsOf number).foldl (fun db q => db.script (q.create id)) T.database
      = T.database := by
    induction partitionsOf number with
    | nil => rfl
    | cons q rest ih => rw [List.foldl_cons, Tables.script_create, ih]
  rwa [same] at scripts

/-- Tables without the records of a project. -/
def Tables.cleared (T : Tables) (id : Id) : Tables :=
  { T with
    records := T.records.filter fun r => !decide (r.project = id)
    changes := T.changes.filter fun c => !decide (c.project = id) }

/-- Tables without a project and its records. -/
def Tables.without (T : Tables) (id : Id) : Tables :=
  { T.cleared id with projects := T.projects.filter fun e => !decide (e.2.id = id) }

namespace Tables.Holds

variable (holds : T.Holds l)
include holds

/-! Projects -/

/-- A project comes with a number that no other has. -/
theorem addProject (p : Project) :
    Tables.Holds { T with projects := T.projects ++ [(numbering.next T.database, p)] }
      { l with projects := l.projects ++ [p] } := by
  refine ⟨?_, holds.records, holds.changes, ?_⟩
  · rw [List.map_append, holds.projects]
    rfl
  · rw [List.map_append, List.nodup_append]
    refine ⟨holds.numbers, List.pairwise_singleton _ _, ?_⟩
    intro n old m new same
    obtain ⟨x, stored, rfl⟩ := List.mem_map.mp old
    refine numbering.fresh T.database _ (List.mem_map_of_mem stored) ?_
    rw [projectRow_number, same, List.mem_singleton.mp new]

theorem createProject (config : ServerConfig) {p : Project} (plain : PlainEntries p.entries) :
    Serves numbering (Server.createProject config p) T.database
      ((l.createProject p).map ((), ·)) := by
  refine (does_connect _).serves (Settles.transaction ?_ _)
  have granted := Tables.run_insertProject numbering (T := T) plain
  rw [holds.any_project] at granted
  unfold Ledger.createProject
  cases taken : l.projects.any (·.id = p.id) with
  | true =>
    rw [taken, if_pos rfl] at granted
    exact .refused (fails_query _ granted).andThen.andThen.andThen
  | false =>
    rw [taken, if_neg Bool.false_ne_true] at granted
    let e : Int × Project := (numbering.next T.database, p)
    let added : Tables := { T with projects := T.projects ++ [e] }
    have row : Does numbering (Dialogue.performOne (Fault.internal "Failed to insert project")
        (.statement (.insertProject p [.partitionNumber]))) T.database
        ((projectRow e).only [.partitionNumber]) added.database :=
      (does_optional _ granted (o := some _) rfl).andThen (does_done _ _)
    have number : Does numbering (readNumber ((projectRow e).only [.partitionNumber])) added.database
        e.1 added.database := does_done _ _
    refine (does_mention _ _).settles (row.settles (number.settles ?_))
    cases config.tenantPartitioning with
    | true =>
      exact .granted (does_createPartitions numbering _ e.1 p.id) (holds.addProject numbering p)
    | false => exact .granted (does_done () _) (holds.addProject numbering p)

variable (sound : l.Sound) (plain : l.Plain)
include sound plain

theorem getProject (id : Id) :
    Serves numbering (Server.getProject id) T.database ((l.project id).map (·, l)) :=
  (does_connect _).serves (Reads.serves holds (holds.reads_readProject numbering sound plain id))

omit sound in
theorem listProjects (limit : Nat) (cursor : ProjectCursor) :
    Serves numbering (Server.listProjects limit cursor) T.database
      (.ok (l.listProjects limit cursor, l)) := by
  have granted := Tables.run_selectProjects numbering (T := T) limit cursor
  rw [holds.projects] at granted
  have read : ∀ p ∈ l.listProjects limit cursor, Reader.project (Row.ofEntries p.entries) = .ok p := by
    intro p mem
    exact read_project (plain.created (Ledger.mem_listProjects mem))
  have rows : Does numbering _ _ _ _ := does_mapM_read (fun p => p) read T.database
  rw [List.map_id'] at rows
  refine (does_connect _).serves (.granted holds ?_)
  exact ((does_perform "Failed to list projects" granted).andThen rows) none

omit sound plain in
/-- Other values of projects leave their numbers and identifiers. -/
theorem setProject (id : Id) (u : ProjectUpdate) :
    Tables.Holds { T with projects := T.projects.map fun e =>
      if e.2.id = id then (e.1, u.apply e.2) else e } (l.setProject id u) := by
  refine ⟨?_, holds.records, holds.changes, ?_⟩
  · rw [Ledger.setProject, ← holds.projects, List.map_map, List.map_map]
    refine List.map_congr_left fun e _ => ?_
    simp only [Function.comp_apply]
    split <;> rfl
  · have numbers := holds.numbers
    rw [List.map_map]
    refine (List.map_congr_left fun e _ => ?_).symm ▸ numbers
    simp only [Function.comp_apply]
    split <;> rfl

theorem updateProject (id : Id) {u : ProjectUpdate} (request : PlainEntries u.entries) :
    Serves numbering (Server.updateProject id u) T.database (l.updateProject id u) := by
  unfold Server.updateProject Ledger.updateProject
  split
  · exact serves_error _ _
  · obtain ⟨n, granted⟩ := Tables.run_updateProject numbering request (holds.ids_nodup sound) id
    have row := does_optional (Fault.internal "Failed to update project") granted rfl
    refine (does_mention _ _).serves ((does_connect _).serves ?_)
    rcases holds.find_project id with ⟨none, none'⟩ | ⟨n, p, found, found', mem, -⟩
    · have same : (T.projects.map fun e => if e.2.id = id then (e.1, u.apply e.2) else e) = T.projects := by
        refine (List.map_congr_left fun e mem => if_neg ?_).trans (List.map_id' T.projects)
        simpa using List.find?_eq_none.mp none e mem
      rw [same, none] at row
      rw [none']
      exact row.serves (serves_error _ _)
    · have read : Reader.project (Row.ofEntries (u.apply p).entries) = .ok (u.apply p) :=
        read_project (plain.created (holds.mem_projects mem) : p.createTime.Plain)
      rw [found] at row
      rw [found']
      exact .granted (holds.setProject id u) (row.andThen (does_read read _) none)

/-! The end of a project -/

omit sound plain in
theorem removeProject (id : Id) : (T.without id).Holds (l.removeProject id) := by
  refine ⟨?_, ?_, ?_, holds.numbers.sublist (List.filter_sublist.map _)⟩
  · simp [without, Ledger.removeProject, ← holds.projects, List.filter_map, Function.comp_def]
  · simp [without, cleared, Ledger.removeProject, holds.records]
  · have removed := filter_changesIn (fun k => !decide (k.1 = id)) l.records
    have kept : l.records.filter (fun r => !decide (r.key.1 = id)) = (l.removeProject id).records :=
      List.filter_congr fun r _ => decide_not.symm
    rw [kept] at removed
    exact (holds.changes.filter fun c => !decide (c.project = id)).trans (.of_eq removed)

omit holds sound plain in
theorem does_dropPartitions {n : Int} {p : Project} (mem : (n, p) ∈ T.projects)
    (numbers : (T.projects.map (·.1)).Nodup) :
    Does numbering (scriptEach "Failed to drop partition" Partition.drop (partitionsOf n)) T.database ()
      (T.cleared p.id).database := by
  have scripts := does_scriptEach numbering "Failed to drop partition" Partition.drop (partitionsOf n)
    T.database
  let rest : Tables := { T with records := T.records.filter fun r => !decide (r.project = p.id) }
  have same : (partitionsOf n).foldl (fun db q => db.script q.drop) T.database
      = (T.cleared p.id).database := by
    change (T.database.script (Partition.drop ⟨Table.records.name, n⟩)).script
      (Partition.drop ⟨Table.changes.name, n⟩) = _
    rw [Tables.script_dropRecords numbers mem, Tables.script_dropChanges (T := rest) numbers mem]
    rfl
  rwa [same] at scripts

omit holds sound plain in
theorem does_deleteRows (id : Id) :
    Does numbering (deleteEach [.deleteProjectChanges id, .deleteRecords id]) T.database ()
      (T.cleared id).database := by
  obtain ⟨reply, changes⟩ := Tables.run_deleteProjectChanges numbering (T := T) id
  obtain ⟨reply', records⟩ := Tables.run_deleteRecords numbering id (T := { T with
    changes := T.changes.filter fun c => !decide (c.project = id) })
  exact (does_perform _ changes).andThen ((does_perform _ records).andThen (does_done () _))

omit plain in
theorem dropProject (config : ServerConfig) (id : Id) :
    Serves numbering (Server.dropProject config id) T.database ((l.dropProject id).map ((), ·)) := by
  refine (does_connect _).serves (Settles.transaction ?_ _)
  have granted := Tables.run_selectProject numbering (holds.ids_nodup sound) id [.partitionNumber] true
  refine (does_performOptional _ granted rfl).settles ?_
  unfold Ledger.dropProject
  rcases holds.find_project id with ⟨none, none'⟩ | ⟨n, p, found, found', mem, rfl⟩
  · rw [none, none']
    exact .refused (reads_done _ _).fails
  · rw [found, found']
    have number : Does numbering (readNumber ((projectRow (n, p)).only [.partitionNumber])) T.database n
      T.database := does_done _ _
    have unused : ∀ r ∈ (T.cleared p.id).records, r.project ≠ p.id := by
      intro r mem
      simpa using (List.mem_filter.mp mem).2
    obtain ⟨reply, removed⟩ := Tables.run_deleteProject numbering unused
    have project : Does numbering (deleteEach [.deleteProject p.id]) (T.cleared p.id).database ()
        (T.without p.id).database := (does_perform _ removed).andThen (does_done () _)
    refine number.settles ?_
    dsimp only
    split
    · exact .granted ((does_dropPartitions numbering mem holds.numbers).andThen project)
        (holds.removeProject p.id)
    · exact .granted ((does_deleteRows numbering p.id).andThen project) (holds.removeProject p.id)

/-! Records -/

omit plain in
/-- Work for which a project has to be there. -/
theorem gated {α : Type} {project : Id} {work : Unit → Dialogue α} {x : Except Error (α × Ledger)}
    (missing : ∀ e, l.project project = .error e → x = .error e)
    (settles : ∀ p, l.project project = .ok p → Settles numbering (work ()) T.database x) :
    Settles numbering ((requireProject project).andThen work) T.database x := by
  have gate := holds.reads_requireProject numbering sound project
  cases found : l.project project with
  | error e =>
    rw [found] at gate
    rw [missing e found]
    exact .refused gate.fails.andThen
  | ok p =>
    rw [found] at gate
    exact Does.settles gate (settles p found)

omit sound plain in
/-- Whoever a change belongs to is a record of the ledger. -/
theorem owned_changes {x : Placed} (mem : x ∈ T.changes) : ∃ r ∈ l.records, x.owner = r.key := by
  obtain ⟨r, stored, own⟩ := List.mem_flatMap.mp (holds.changes.mem_iff.mp mem)
  exact ⟨r, stored, owner_of_mem own⟩

omit sound plain in
theorem addRecords (createTime : Instant) (batch : List Record) :
    Tables.Holds { T with
        records := T.records ++ batch.map fun r => { r with createTime := createTime }
        changes := T.changes ++ batch.flatMap changesIn } (l.addRecords createTime batch) := by
  refine ⟨holds.projects, ?_, ?_, holds.numbers⟩
  · rw [Ledger.addRecords, holds.records]
  · rw [Ledger.addRecords, List.flatMap_append, List.flatMap_map]
    exact holds.changes.append_right _

omit plain in
/-- A batch is written as a whole, with all its changes, if no key repeats. -/
theorem insertBatch {first : Record} {rest : List Record} {p : Project}
    (together : ∀ r ∈ first :: rest, r.project = first.project)
    (request : ∀ r ∈ first :: rest, r.Plain) (found : l.project first.project = .ok p) :
    Settles numbering ((insertEach "Failed to insert record"
        (fun _ r => Statement.insertRecord first.project first.createTime r) (first :: rest)).andThen
          fun _ => insertAllChanges first.project (first :: rest)) T.database
      (Except.map ((), ·) <| if ((l.records ++ first :: rest).map Record.key).Nodup then
        .ok (l.addRecords first.createTime (first :: rest)) else .error .inside) := by
  have plain : ∀ r ∈ first :: rest, Record.Plain { r with createTime := first.createTime } :=
    fun r mem => (request r mem).stamped (request first List.mem_cons_self).created
  have present : T.projects.any (·.2.id = first.project) = true := by
    obtain ⟨mem, named⟩ := Ledger.project_eq_ok found
    rw [holds.any_project]
    exact List.any_eq_true.mpr ⟨p, mem, decide_eq_true named⟩
  have rows := executeRecords numbering "Failed to insert record" together plain present
    (holds.keys_nodup sound) 0
  dsimp only at rows
  rw [holds.records] at rows
  by_cases distinct : ((l.records ++ first :: rest).map Record.key).Nodup
  · rw [if_pos distinct] at rows ⊢
    have apart := List.nodup_append.mp (List.map_append ▸ distinct)
    have changes := does_insertAllChanges numbering first.project together
      (fun r mem => (request r mem).changes) apart.2.1 (T := { T with
        records := l.records ++ (first :: rest).map fun r => { r with createTime := first.createTime } })
      fun x mem r batched same => by
        obtain ⟨y, stored, own⟩ := holds.owned_changes mem
        exact apart.2.2 _ (List.mem_map_of_mem stored) _ (List.mem_map_of_mem batched)
          (own.symm.trans same)
    have after := holds.addRecords first.createTime (first :: rest)
    rw [holds.records] at after
    exact .granted ((does_insertEach rows).andThen changes) after
  · rw [if_neg distinct] at rows ⊢
    exact .refused (fails_insertEach rows).andThen

omit plain in
theorem createRecords {records : List Record} (request : ∀ r ∈ records, r.Plain) :
    Serves numbering (Server.createRecords records) T.database
      ((l.createRecords records).map ((), ·)) := by
  cases records with
  | nil => exact serves_error _ _
  | cons first rest =>
    rw [Server.createRecords, Ledger.createRecords]
    split
    · exact serves_error _ _
    · next together =>
      refine (does_connect _).serves (Settles.transaction ?_ _)
      refine holds.gated numbering sound (fun e none => by rw [none]; rfl) fun p found => ?_
      rw [found]
      exact holds.insertBatch numbering sound (by simpa using together) request found

theorem getRecord (project id : Id) :
    Serves numbering (Server.getRecord project id) T.database ((l.getRecord project id).map (·, l)) := by
  refine (does_connect _).serves (Settles.transaction ?_ _)
  unfold Ledger.getRecord
  refine holds.gated numbering sound (fun e none => by rw [none]; rfl) fun p found => ?_
  rw [found]
  exact (holds.reads_readRecord numbering sound plain project id).settled holds

omit plain in
/-- The records of a page, read without their changes, get their changes. -/
theorem does_attach (project : Id) (f : RecordFilter) (limit : Nat) (cursor : RecordCursor) :
    let records := (l.page project f limit cursor).map fun r => r.withChanges []
    ∃ found, Does numbering (readChanges project (records.map (·.id))) T.database found T.database ∧
      Record.attach found records = l.page project f limit cursor := by
  intro records
  have ids : records.map (·.id) = (l.page project f limit cursor).map (·.id) := List.map_map
  obtain ⟨found, reads, complete⟩ := holds.does_readChanges numbering sound project (records.map (·.id))
  refine ⟨found, reads, ?_⟩
  rw [Record.attach_eq_map (ids ▸ Ledger.page_nodup sound.records), List.map_map]
  refine (List.map_congr_left fun r mem => ?_).trans (List.map_id' _)
  obtain ⟨stored, own⟩ := Ledger.mem_page mem
  have all := complete r stored own (ids ▸ List.mem_map_of_mem mem)
  change r.withChanges (Record.changesOf found r.id) = r
  rw [all]
  rfl

theorem listRecords {project : Id} {f : RecordFilter} {limit : Nat} {cursor : RecordCursor}
    (request : (Request.listRecords project f limit cursor).Plain) :
    Serves numbering (Server.listRecords project f limit cursor) T.database
      ((l.listRecords project f limit cursor).map (·, l)) := by
  cases complete : cursor.isComplete with
  | false =>
    have half := RecordCursor.keyset_of_half complete
    simp only [Server.listRecords, Ledger.listRecords, Dialogue.demand, half, bind, Except.bind]
    exact serves_error _ _
  | true =>
    obtain ⟨key, keyset⟩ := RecordCursor.keyset_of_complete complete
    have granted := Tables.run_selectRecords numbering (T := T)
      (fun r mem => plain.records r (holds.records ▸ mem)) request keyset
    rw [holds.records] at granted
    have rows : Does numbering _ _ _ _ := does_mapM_read (fun r => r.withChanges [])
      (l := l.page project f limit cursor)
      (fun r mem => read_record (plain.records r (Ledger.mem_page mem).1)) T.database
    obtain ⟨found, reads, attached⟩ := holds.does_attach numbering sound project f limit cursor
    simp only [Server.listRecords, Ledger.listRecords, Dialogue.demand, keyset]
    refine (does_mention _ _).serves ((does_connect _).serves (Settles.transaction ?_ _))
    refine holds.gated numbering sound (fun e none => by rw [none]; rfl) fun p present => ?_
    rw [present]
    refine (does_query _ granted).settles (Does.settles rows (reads.settles ?_))
    rw [attached]
    exact .granted (does_done _ _) holds

omit holds sound plain in
theorem filter_setRecord (project id : Id) (u : RecordUpdate) (q : Id × Id → Bool) :
    (l.setRecord project id u).records.filter (fun r => q r.key)
      = (l.records.filter fun r => q r.key).map fun r =>
        if r.key = (project, id) then u.apply r else r := by
  rw [Ledger.setRecord, List.filter_map]
  refine congrArg (List.map _) (List.filter_congr fun r _ => congrArg q ?_)
  by_cases own : r.key = (project, id) <;> simp [own]

omit sound plain in
theorem setRecord_kept (project id : Id) {u : RecordUpdate} (unchanged : u.resource = none) :
    Tables.Holds { T with records := T.records.map fun r =>
      if r.key = (project, id) then u.apply r else r } (l.setRecord project id u) := by
  refine ⟨holds.projects, by rw [holds.records]; rfl, ?_, holds.numbers⟩
  have same : (l.setRecord project id u).records.flatMap changesIn = l.records.flatMap changesIn := by
    rw [Ledger.setRecord, List.flatMap_map]
    refine List.flatMap_congr fun r _ => ?_
    split
    · simp [changesIn, RecordUpdate.apply, unchanged]
    · rfl
  rw [same]
  exact holds.changes

omit plain in
/-- New changes take the place of all changes that a record had. -/
theorem setRecord {r : Record} (mem : r ∈ l.records) {u : RecordUpdate} {resource : Resource}
    (changed : u.resource = some resource) :
    Tables.Holds { T with
      records := T.records.map fun x => if x.key = (r.project, r.id) then u.apply x else x
      changes := (T.changes.filter fun c => !decide (c.owner = (r.project, r.id)))
        ++ placed r.project r.id 0 resource.changes } (l.setRecord r.project r.id u) := by
  refine ⟨holds.projects, by rw [holds.records]; rfl, ?_, holds.numbers⟩
  have others : ((l.setRecord r.project r.id u).records.flatMap changesIn).filter
        (fun c => !decide (c.owner = r.key))
      = (l.records.flatMap changesIn).filter fun c => !decide (c.owner = r.key) := by
    rw [filter_changesIn (fun k => !decide (k = r.key)), filter_changesIn (fun k => !decide (k = r.key)),
      filter_setRecord r.project r.id u fun k => !decide (k = r.key)]
    refine congrArg (List.flatMap changesIn) ((List.map_congr_left fun x kept => if_neg ?_).trans
      (List.map_id' _))
    have other : ¬ x.key = r.key := by simpa using (List.mem_filter.mp kept).2
    exact other
  have own : ((l.setRecord r.project r.id u).records.flatMap changesIn).filter
        (fun c => decide (c.owner = r.key)) = placed r.project r.id 0 resource.changes := by
    rw [filter_changesIn (fun k => decide (k = r.key)),
      filter_setRecord r.project r.id u fun k => decide (k = r.key), filter_key sound.records mem]
    simp [changesIn, RecordUpdate.apply, changed, Record.key]
  have parts := List.filter_append_perm (fun c => decide (c.owner = r.key))
    ((l.setRecord r.project r.id u).records.flatMap changesIn)
  rw [own, others] at parts
  exact ((List.perm_append_comm.trans ((holds.changes.filter _).append_left _)).trans parts)

omit holds in
/-- A record that has been changed is read as it is then. -/
theorem rereads {project id : Id} {u : RecordUpdate} (request : u.Plain) {r : Record}
    (found : l.record project id = .ok r) {T' : Tables} (after : T'.Holds (l.setRecord project id u)) :
    Settles numbering (readRecord project id) T'.database (.ok (u.apply r, l.setRecord project id u)) := by
  have step : Ledger.Step l (.updateRecord project id u) (l.setRecord project id u) := .updateRecord
  have changed : (l.setRecord project id u).Plain :=
    plain.step (r := .updateRecord project id u) request step
  have reads := after.reads_readRecord numbering (sound.step step) changed project id
  rw [Ledger.record_setRecord, found] at reads
  exact .granted reads after

theorem updateRecord (project id : Id) {u : RecordUpdate} (request : u.Plain) :
    Serves numbering (Server.updateRecord project id u) T.database (l.updateRecord project id u) := by
  cases empty : u.isEmpty with
  | true =>
    simp only [Server.updateRecord, Ledger.updateRecord, empty, if_true]
    exact serves_error _ _
  | false =>
    simp only [Server.updateRecord, Ledger.updateRecord, empty, Bool.false_eq_true, if_false]
    refine (does_connect _).serves (Settles.transaction ?_ _)
    refine (holds.reads_readProject numbering sound plain project).settles fun p gate => ?_
    cases allowed : p.allowsUpdate with
    | false => exact .refused (reads_done _ _).fails
    | true =>
      have written := does_perform "Failed to update record"
        (Tables.run_updateRecord numbering (T := T) request project id)
      rw [filter_eq_find? (holds.keys_nodup sound), holds.records] at written
      refine written.settles ?_
      rcases l.find_record project id with ⟨none, none'⟩ | ⟨r, found, found', mem, rfl, rfl⟩
      · rw [none, none']
        exact .refused (reads_done _ _).fails
      · have reread {T' : Tables} (after : T'.Holds (l.setRecord r.project r.id u)) :=
          after.rereads numbering sound plain request found'
        rw [found, found']
        cases replaced : u.resource with
        | none => exact reread (holds.records ▸ holds.setRecord_kept r.project r.id replaced)
        | some resource =>
          have after := holds.setRecord sound mem replaced
          rw [holds.records] at after
          refine (does_deleteChanges numbering r.project r.id).settles
            ((does_insertChanges numbering r.project r.id (request.changes resource replaced) ?_).settles
              (reread after))
          intro x kept
          simpa using (List.mem_filter.mp kept).2

omit sound plain in
theorem removeRecord (project id : Id) : Tables.Holds { T with
    records := T.records.filter fun r => !decide (r.key = (project, id))
    changes := T.changes.filter fun c => !decide (c.owner = (project, id)) }
    (l.removeRecord project id) := by
  refine ⟨holds.projects, ?_, ?_, holds.numbers⟩
  · simp [Ledger.removeRecord, holds.records]
  · have removed := filter_changesIn (fun k => !decide (k = (project, id))) l.records
    have kept : l.records.filter (fun r => !decide (r.key = (project, id)))
        = (l.removeRecord project id).records := List.filter_congr fun r _ => decide_not.symm
    rw [kept] at removed
    exact (holds.changes.filter fun c => !decide (c.owner = (project, id))).trans (.of_eq removed)

theorem deleteRecord (project id : Id) :
    Serves numbering (Server.deleteRecord project id) T.database
      ((l.deleteRecord project id).map ((), ·)) := by
  refine (does_connect _).serves (Settles.transaction ?_ _)
  unfold Ledger.deleteRecord
  have gate := holds.reads_readProject numbering sound plain project
  cases found : l.project project with
  | error e =>
    rw [found] at gate
    exact .refused gate.fails.andThen
  | ok p =>
    rw [found] at gate
    refine Does.settles gate ?_
    simp only [bind, Except.bind]
    cases allowed : p.allowsDelete with
    | false => exact .refused (reads_done _ _).fails
    | true =>
      obtain ⟨reply, removed⟩ := Tables.run_deleteRecord numbering project id (T := { T with
        changes := T.changes.filter fun c => !decide (c.owner = (project, id)) })
      exact .granted ((does_deleteChanges numbering project id).andThen
        ((does_perform _ removed).andThen (does_done () _))) (holds.removeRecord project id)

/-- Whatever is asked, a database that holds a ledger of plain values gives the answer of the ledger and
holds the ledger after it, whether the store keeps projects apart or not. -/
theorem handle (config : ServerConfig) {r : AuditTrail.Request} (request : r.Plain) :
    Serves numbering ((store config).handle r) T.database (l.handle r) := by
  cases r with
  | createProject p =>
    have served := (holds.createProject numbering config request).map fun _ => Answer.done
    rwa [map_map] at served
  | getProject id =>
    have served := (holds.getProject numbering sound plain id).map Answer.project
    rwa [map_map] at served
  | listProjects limit cursor =>
    exact (holds.listProjects numbering plain limit cursor).map Answer.projects
  | updateProject id u => exact (holds.updateProject numbering sound plain id request).map Answer.project
  | dropProject id =>
    have served := (holds.dropProject numbering sound config id).map fun _ => Answer.done
    rwa [map_map] at served
  | createRecords records =>
    have served := (holds.createRecords numbering sound request).map fun _ => Answer.done
    rwa [map_map] at served
  | getRecord project id =>
    have served := (holds.getRecord numbering sound plain project id).map Answer.record
    rwa [map_map] at served
  | listRecords project f limit cursor =>
    have served := (holds.listRecords numbering sound plain request).map Answer.records
    rwa [map_map] at served
  | updateRecord project id u =>
    exact (holds.updateRecord numbering sound plain project id request).map Answer.record
  | deleteRecord project id =>
    have served := (holds.deleteRecord numbering sound plain project id).map fun _ => Answer.done
    rwa [map_map] at served

end Tables.Holds

/-- The answer of an operation, and what the tables hold afterwards. -/
theorem Serves.answer {d : Dialogue Answer} {r : AuditTrail.Request} (holds : T.Holds l)
    (serves : Serves numbering d T.database (l.handle r)) :
    (d.carryOut (Engine.answer numbering) ⟨T.database, .idle⟩).1.mapError Error.outline = l.reply r ∧
      ∃ T' : Tables, T'.Holds (l.after r) ∧
        (d.carryOut (Engine.answer numbering) ⟨T.database, .idle⟩).2 = ⟨T'.database, .idle⟩ := by
  unfold Ledger.reply Ledger.after
  generalize l.handle r = y at serves ⊢
  cases serves with
  | granted after answers =>
    rw [answers]
    exact ⟨rfl, _, after, rfl⟩
  | refused same fails =>
    rw [fails]
    exact ⟨congrArg Except.error same, T, holds, rfl⟩

end AuditTrail.Server
