import AuditTrail.Proofs.Server.Database
import AuditTrail.Server.Store

/-! Operations carried out with a database server. A line that can connect changes nothing about what a
dialogue comes to, so dialogues are followed with the server itself: inside a transaction or outside, a
dialogue gives a result and leaves tables, or it fails. -/
namespace AuditTrail.Server

namespace Dialogue

variable {σ α β : Type} (answer : Request → σ → Except Fault Reply × σ)

/-- What a dialogue comes to with somebody who answers in states of some type. -/
def carryOut : Dialogue α → σ → Except Error α × σ
  | done result, s => (result, s)
  | note _ rest, s => rest.carryOut s
  | ask q next, s => (next (answer q s).1).carryOut (answer q s).2

theorem carryOut_andThen (d : Dialogue α) (f : α → Dialogue β) (s : σ) :
    (d.andThen f).carryOut answer s = match d.carryOut answer s with
      | (.ok a, t) => (f a).carryOut answer t
      | (.error e, t) => (.error e, t) := by
  induction d generalizing s with
  | done r => cases r <;> rfl
  | note statement rest ih => exact ih s
  | ask q next ih => exact ih _ _

theorem carryOut_closing (committing : Fault → Error) (d : Dialogue α) (s : σ) :
    (d.closing committing).carryOut answer s
      = (close committing (d.carryOut answer s).1).carryOut answer (d.carryOut answer s).2 := by
  induction d generalizing s with
  | done r => rfl
  | note statement rest ih => exact ih s
  | ask q next ih => exact ih _ _

/-- Whether a dialogue asks for a connection before all else. -/
def Connects : Dialogue α → Prop
  | done _ => True
  | note _ rest => rest.Connects
  | ask q _ => q = .connection

theorem Connects.andThen {d : Dialogue α} {f : α → Dialogue β} (connects : d.Connects)
    (later : ∀ a, (f a).Connects) : (d.andThen f).Connects := by
  induction d with
  | done r =>
    cases r with
    | error e => exact trivial
    | ok a => exact later a
  | note statement rest ih => exact ih connects
  | ask q next ih => exact connects

end Dialogue

theorem connects_handle (config : ServerConfig) (r : AuditTrail.Request) :
    ((store config).handle r).Connects := by
  cases r with
  | createRecords records =>
    refine Dialogue.Connects.andThen ?_ fun _ => trivial
    cases records with
    | nil => exact trivial
    | cons first rest =>
      simp only [store, createRecords]
      split
      · exact trivial
      · exact rfl
  | listRecords project filter limit cursor =>
    refine Dialogue.Connects.andThen ?_ fun _ => trivial
    simp only [store, listRecords, Dialogue.demand]
    cases cursor.keyset with
    | error e => exact trivial
    | ok key => exact rfl
  | updateProject id u =>
    refine Dialogue.Connects.andThen ?_ fun _ => trivial
    simp only [store, updateProject]
    split
    · exact trivial
    · exact rfl
  | updateRecord project id u =>
    refine Dialogue.Connects.andThen ?_ fun _ => trivial
    simp only [store, updateRecord]
    split
    · exact trivial
    · exact rfl
  | createProject | getProject | listProjects | dropProject | getRecord | deleteRecord => exact rfl

namespace Line

variable {α : Type} (numbering : Numbering)

/-- Whether a line has a connection or gets one from a server that welcomes everybody. -/
def CanConnect (l : Line) : Prop := l.connected = true ∨ l.config.sslMode ≠ .require

theorem answer_kept (q : Request) (e : Engine) : isLoss (Engine.answer numbering q e).1 = false := by
  have proceed (f : Database → Option (Reply × Database)) : isLoss (e.proceed f).1 = false := by
    unfold Engine.proceed
    split
    · split <;> rfl
    · split <;> rfl
    · rfl
  cases q with
  | script | prepare | execute => exact proceed _
  | connection | begin | commit | rollback => rfl

theorem note_connected (s : Statement) (l : Line) : (l.note s).connected = l.connected := by
  unfold note
  split <;> rfl

/-- On a connection a request is answered by the server, and the connection stays. -/
theorem serve_connected {l : Line} (connected : l.connected = true) (q : Request) (e : Engine) :
    ∃ m : Line, m.connected = true ∧
      l.serve (Peer.database numbering) q e
        = ((Engine.answer numbering q e).1, m, (Engine.answer numbering q e).2) := by
  have exchanged : ∃ m : Line, m.connected = true ∧ l.exchange (Peer.database numbering) q e
      = ((Engine.answer numbering q e).1, m, (Engine.answer numbering q e).2) := by
    refine ⟨_, ?_, rfl⟩
    change (!isLoss (Engine.answer numbering q e).1) = true
    rw [answer_kept]
    rfl
  unfold serve
  rw [connected]
  cases q with
  | connection => exact ⟨l, connected, rfl⟩
  | _ => exact exchanged

theorem run_connected (d : Dialogue α) {l : Line} (connected : l.connected = true) (e : Engine) :
    ∃ m : Line, m.connected = true ∧ l.run (Peer.database numbering) d e
      = ((d.carryOut (Engine.answer numbering) e).1, m,
        (d.carryOut (Engine.answer numbering) e).2) := by
  induction d generalizing l e with
  | done r => exact ⟨l, connected, rfl⟩
  | note statement rest ih => exact ih ((note_connected statement l).trans connected) e
  | ask q next ih =>
    obtain ⟨m, kept, served⟩ := serve_connected numbering connected q e
    obtain ⟨n, open', ran⟩ := ih (Engine.answer numbering q e).1 kept (Engine.answer numbering q e).2
    refine ⟨n, open', ?_⟩
    simp only [run, served]
    exact ran

/-- A line that can connect carries out a dialogue that begins with a connection as the server answers. -/
theorem run_database {d : Dialogue α} (connects : d.Connects) {l : Line} (can : l.CanConnect)
    (e : Engine) : ∃ m : Line, m.CanConnect ∧ l.run (Peer.database numbering) d e
      = ((d.carryOut (Engine.answer numbering) e).1, m,
        (d.carryOut (Engine.answer numbering) e).2) := by
  cases alive : l.connected with
  | true =>
    obtain ⟨m, connected, ran⟩ := run_connected numbering d alive e
    exact ⟨m, .inl connected, ran⟩
  | false =>
    have plain : l.config.sslMode ≠ .require := can.resolve_left (by simp [alive])
    induction d generalizing l with
    | done r => exact ⟨l, can, rfl⟩
    | note statement rest ih =>
      have config : (l.note statement).config = l.config := by
        unfold note
        split <;> rfl
      exact ih connects (.inr (config ▸ plain)) ((note_connected statement l).trans alive) (config ▸ plain)
    | ask q next ih =>
      cases connects
      have dialed : l.serve (Peer.database numbering) .connection e
          = (.ok .empty, { l.send (startup l.config) with connected := true }, e) := by
        simp [serve, alive, dial, Peer.database, plain, Except.map]
      obtain ⟨m, connected, ran⟩ := run_connected numbering (next (.ok .empty))
        (l := { l.send (startup l.config) with connected := true }) rfl e
      refine ⟨m, .inl connected, ?_⟩
      simp only [run, dialed]
      exact ran

end Line

/-! What a dialogue does to tables -/

/-- An engine whose next statement is about some tables: those that last, or those of a transaction over
tables that last. -/
def Engine.on (base : Option Database) (db : Database) : Engine :=
  match base with
  | none => ⟨db, .idle⟩
  | some lasting => ⟨lasting, .working db⟩

theorem Engine.proceed_on {f : Database → Option (Reply × Database)} {db db' : Database} {reply : Reply}
    (granted : f db = some (reply, db')) (base : Option Database) :
    (Engine.on base db).proceed f = (.ok reply, .on base db') := by
  cases base <;> simp [Engine.on, Engine.proceed, granted]

section Judgements

variable (numbering : Numbering) {α β : Type}

/-- Whether a dialogue has a result for some tables, and what tables it leaves. -/
def Does (d : Dialogue α) (db : Database) (a : α) (db' : Database) : Prop :=
  ∀ base, d.carryOut (Engine.answer numbering) (.on base db) = (.ok a, .on base db')

/-- Whether a dialogue leaves tables as they are, and what it comes to. -/
def Reads (d : Dialogue α) (db : Database) (x : Except Error α) : Prop :=
  ∀ base, d.carryOut (Engine.answer numbering) (.on base db) = (x, .on base db)

/-- Whether a dialogue fails in a transaction, with some error or another that differs inside. -/
def Fails (d : Dialogue α) (db : Database) (e : Error) : Prop :=
  ∀ lasting, ∃ f stage, f.outline = e.outline ∧
    d.carryOut (Engine.answer numbering) ⟨lasting, .working db⟩ = (.error f, ⟨lasting, stage⟩)

variable {numbering} {d : Dialogue α} {f : α → Dialogue β} {db db' db'' : Database} {a : α} {b : β}
  {e : Error}

theorem Does.andThen (does : Does numbering d db a db') (then' : Does numbering (f a) db' b db'') :
    Does numbering (d.andThen f) db b db'' := by
  intro base
  rw [Dialogue.carryOut_andThen, does base]
  exact then' base

theorem Does.reads {x : Except Error β} (does : Does numbering d db a db)
    (then' : Reads numbering (f a) db x) : Reads numbering (d.andThen f) db x := by
  intro base
  rw [Dialogue.carryOut_andThen, does base]
  exact then' base

theorem Does.fails (does : Does numbering d db a db') (then' : Fails numbering (f a) db' e) :
    Fails numbering (d.andThen f) db e := by
  intro lasting
  rw [Dialogue.carryOut_andThen]
  have first := does (some lasting)
  simp only [Engine.on] at first
  rw [first]
  exact then' lasting

theorem Reads.fails (reads : Reads numbering d db (.error e)) : Fails numbering d db e :=
  fun lasting => ⟨e, .working db, rfl, reads (some lasting)⟩

theorem Fails.andThen (fails : Fails numbering d db e) : Fails numbering (d.andThen f) db e := by
  intro lasting
  obtain ⟨g, stage, outline, failed⟩ := fails lasting
  refine ⟨g, stage, outline, ?_⟩
  rw [Dialogue.carryOut_andThen, failed]

theorem does_done (a : α) (db : Database) : Does numbering (.done (.ok a)) db a db := fun _ => rfl

theorem reads_done (x : Except Error α) (db : Database) : Reads numbering (.done x) db x := fun _ => rfl

theorem does_connect (db : Database) : Does numbering Dialogue.connect db () db := fun _ => rfl

theorem does_mention (s : Statement) (db : Database) :
    Does numbering (Dialogue.mention s) db () db := fun _ => rfl

/-! Transactions -/

theorem carryOut_transaction (beginning committing : Fault → Error) (work : Dialogue α)
    (db : Database) : (Dialogue.transaction beginning committing work).carryOut
        (Engine.answer numbering) ⟨db, .idle⟩
      = (work.closing committing).carryOut (Engine.answer numbering) (.on (some db) db) := rfl

theorem Does.transaction (does : Does numbering d db a db') (beginning committing : Fault → Error) :
    (Dialogue.transaction beginning committing d).carryOut (Engine.answer numbering) ⟨db, .idle⟩
      = (.ok a, ⟨db', .idle⟩) := by
  rw [carryOut_transaction, Dialogue.carryOut_closing, does (some db)]
  rfl

theorem Fails.transaction (fails : Fails numbering d db e) (beginning committing : Fault → Error) :
    ∃ f, f.outline = e.outline ∧ (Dialogue.transaction beginning committing d).carryOut
      (Engine.answer numbering) ⟨db, .idle⟩ = (.error f, ⟨db, .idle⟩) := by
  obtain ⟨f, stage, outline, failed⟩ := fails db
  refine ⟨f, outline, ?_⟩
  rw [carryOut_transaction, Dialogue.carryOut_closing]
  simp only [Engine.on]
  rw [failed]
  rfl

/-! Statements -/

variable {s : Statement} {reply : Reply}

theorem does_request {q : Request} (report : Fault → Error)
    (granted : ∀ base, Engine.answer numbering q (.on base db) = (.ok reply, .on base db')) :
    Does numbering (Dialogue.request report q) db reply db' := by
  intro base
  simp only [Dialogue.request, Dialogue.carryOut, granted base]

theorem does_script (report : Fault → Error) (text : String) (db : Database) :
    Does numbering (Dialogue.script report text) db () (db.script text) := by
  have granted (base : Option Database) : Engine.answer numbering (.script text) (.on base db)
      = (.ok .empty, .on base (db.script text)) :=
    Engine.proceed_on (f := fun db => some (.empty, db.script text)) rfl base
  exact (does_request report granted).andThen (does_done () _)

theorem does_prepare (report : Fault → Error) (q : Query) (db : Database) :
    Does numbering (Dialogue.request report (.prepare q)) db .empty db :=
  does_request report fun base => Engine.proceed_on (f := fun db => some (.empty, db)) rfl base

theorem does_execute (report : Fault → Error) (granted : db.run numbering s = some (reply, db')) :
    Does numbering (Dialogue.request report (.execute (.statement s))) db reply db' :=
  does_request report fun base =>
    Engine.proceed_on (f := fun db => db.query numbering (.statement s)) granted base

theorem does_query (report : Fault → Error) (granted : db.run numbering s = some (reply, db')) :
    Does numbering (Dialogue.perform report (.statement s)) db reply db' :=
  (does_prepare report _ db).andThen (does_execute report granted)

theorem does_perform (doing : String) (granted : db.run numbering s = some (reply, db')) :
    Does numbering (perform doing s) db reply db' :=
  (does_query (Fault.internal doing) granted :)

/-- A statement that answers with at most one row. -/
theorem does_optional (report : Fault → Error) {o : Option Row}
    (granted : db.run numbering s = some (reply, db')) (rows : reply.rows = o.toList) :
    Does numbering (Dialogue.performOptional report (.statement s)) db o db' := by
  refine (does_query report granted).andThen ?_
  rw [rows]
  cases o <;> exact does_done _ _

theorem does_performOptional (doing : String) {o : Option Row}
    (granted : db.run numbering s = some (reply, db')) (rows : reply.rows = o.toList) :
    Does numbering (performOptional doing s) db o db' :=
  (does_optional (Fault.internal doing) granted rows :)

/-- A statement that the server refuses. -/
theorem fails_execute (doing : String) (refused : db.run numbering s = none) :
    Fails numbering (Dialogue.request (Fault.internal doing) (.execute (.statement s))) db .inside := by
  intro lasting
  refine ⟨Fault.refused.internal doing, .broken, rfl, ?_⟩
  simp only [Dialogue.request, Dialogue.carryOut, Engine.answer, Engine.proceed, Database.query, refused]

theorem fails_query (doing : String) (refused : db.run numbering s = none) :
    Fails numbering (Dialogue.perform (Fault.internal doing) (.statement s)) db .inside :=
  (does_prepare _ _ db).fails (fails_execute doing refused)

end Judgements

end AuditTrail.Server
