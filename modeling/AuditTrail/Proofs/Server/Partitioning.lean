import AuditTrail.Proofs.Server.Learning

/-! Two stores whose configurations differ only in whether projects are kept apart. Nothing that opens
or keeps a connection depends on that, and neither does an operation, apart from the creation of tables
and the two that learn the number of a project. What those do up to the number is the same for both. -/
namespace AuditTrail.Server

open Dialogue

/-! Lines -/

namespace Line

variable {σ α : Type} (peer : Peer σ)

/-- The line on which projects are kept apart, or not. -/
def divided (b : Bool) (l : Line) : Line :=
  { l with config := { l.config with tenantPartitioning := b } }

@[simp] theorem divided_divided (b c : Bool) (l : Line) : (l.divided b).divided c = l.divided c := rfl

@[simp] theorem divided_connected (b : Bool) (l : Line) : (l.divided b).connected = l.connected := rfl

@[simp] theorem divided_sent (b : Bool) (l : Line) : (l.divided b).sent = l.sent := rfl

theorem dial_divided (b : Bool) (l : Line) (s : σ) : (l.divided b).dial peer s =
    ((l.dial peer s).1, (l.dial peer s).2.1.divided b, (l.dial peer s).2.2) := by
  have mode : (l.divided b).config.sslMode = l.config.sslMode := rfl
  have password : (l.divided b).config.password = l.config.password := rfl
  unfold dial
  split
  · rfl
  · rw [mode]
    split
    · rfl
    · rcases peer.greet s with ⟨_ | _ | _ | _, t⟩
      · rfl
      · simp only [send, password]
        cases l.config.password <;> rfl
      · rfl
      · rfl

theorem exchange_divided (b : Bool) (q : Request) (l : Line) (s : σ) :
    (l.divided b).exchange peer q s =
      ((l.exchange peer q s).1, (l.exchange peer q s).2.1.divided b, (l.exchange peer q s).2.2) := by
  simp only [exchange]
  cases trace? q (peer.answer q s).1 <;> rfl

theorem serve_divided (b : Bool) (q : Request) (l : Line) (s : σ) : (l.divided b).serve peer q s =
    ((l.serve peer q s).1, (l.serve peer q s).2.1.divided b, (l.serve peer q s).2.2) := by
  by_cases connecting : q = .connection
  · subst connecting
    rw [serve_connection, serve_connection, dial_divided]
    cases alive : l.connected <;> simp [alive]
  · rw [serve_of_ne peer connecting, serve_of_ne peer connecting, exchange_divided]
    cases alive : l.connected <;> simp [alive]

theorem note_divided (b : Bool) (statement : Statement) (l : Line) :
    (l.divided b).note statement = (l.note statement).divided b := by
  have logs : (l.divided b).config.logQueries = l.config.logQueries := rfl
  unfold note
  rw [logs]
  split <;> rfl

/-- Carrying out a dialogue does not look at whether projects are kept apart. -/
theorem run_divided (d : Dialogue α) (b : Bool) (l : Line) (s : σ) : (l.divided b).run peer d s =
    ((l.run peer d s).1, (l.run peer d s).2.1.divided b, (l.run peer d s).2.2) := by
  induction d generalizing l s with
  | done r => rfl
  | note statement rest ih =>
    rw [run, run, note_divided, ih]
  | ask q next ih =>
    simp only [run, serve_divided]
    exact ih _ _ _

theorem exchanges_divided (d : Dialogue α) (b : Bool) (l : Line) (s : σ) :
    (l.divided b).exchanges peer d s = l.exchanges peer d s := by
  induction d generalizing l s with
  | done r => rfl
  | note statement rest ih => rw [exchanges, exchanges, note_divided, ih]
  | ask q next ih =>
    simp only [exchanges, serve_divided]
    exact congrArg (List.cons _) (ih _ _ _)

end Line

/-! The number of a project -/

section

variable {σ : Type} {peer : Peer σ} {on off : ServerConfig}

theorem leavesConnected_learnNew (p : Project) : (learnNew p).LeavesConnected peer :=
  .note _ (leavesConnected_found rfl fun _ => rfl)

theorem leavesConnected_learnKnown (id : Id) : (learnKnown id).LeavesConnected peer :=
  .note _ (leavesConnected_found rfl fun _ => rfl)

theorem asks_deleteEach (ss : List Statement) : (deleteEach ss).Asks (ss.flatMap asking) := by
  induction ss with
  | nil => exact asks_done _
  | cons s rest ih => exact (asks_perform s).andThen fun _ => ih

theorem fails_learnNew (p : Project) (es : List Exchange) (err : Error)
    (course : (learnNew p).Course es (.error err)) :
    ∀ x ∈ es, ∀ n, ¬ x.Shows (.insertProject p [.partitionNumber]) n :=
  not_shows_of_failed rfl (fun _ => rfl) course

theorem fails_learnKnown (id : Id) (es : List Exchange) (err : Error)
    (course : (learnKnown id).Course es (.error err)) :
    ∀ x ∈ es, ∀ n, ¬ x.Shows (.select (.partitionNumber id)) n :=
  not_shows_of_failed rfl (fun _ => rfl) course

/-- With the number of a new project a script is run where projects are kept apart, and none where they
are not. -/
theorem scripts_provide (divided : on.tenantPartitioning = true) (plain : off.tenantPartitioning = false)
    (p : Project) (committing : Fault → Error) (n : Int) :
    ∃ text next, (provide on p n).closing committing = .ask (.script text) next ∧
      ∀ es r, ((provide off p n).closing committing).Course es r → .script text ∉ requests es := by
  rw [provide, if_pos divided]
  refine ⟨_, _, rfl, fun es r course => ?_⟩
  rw [provide, if_neg (by simp [plain])] at course
  exact script_not_mem_closing (asks_done _) (by simp) course

theorem scripts_withdraw (divided : on.tenantPartitioning = true)
    (plain : off.tenantPartitioning = false) (id : Id) (committing : Fault → Error) (n : Int) :
    ∃ text next, (withdraw on id n).closing committing = .ask (.script text) next ∧
      ∀ es r, ((withdraw off id n).closing committing).Course es r → .script text ∉ requests es := by
  rw [withdraw, if_pos divided]
  refine ⟨_, _, rfl, fun es r course => ?_⟩
  rw [withdraw, if_neg (by simp [plain])] at course
  have asks := (asks_deleteEach [.deleteProjectChanges id, .deleteRecords id]).andThen fun _ =>
    asks_deleteEach [.deleteProject id]
  exact script_not_mem_closing asks (by simp [asking]) course

end

/-! What is seen under either setting -/

/-- What is seen of an operation on a line under a setting: everything but the setting itself. -/
def Line.under {σ α : Type} (peer : Peer σ) (l : Line) (state : σ) (d : ServerConfig → Dialogue α)
    (b : Bool) : Except Error α × Line × σ :=
  let x := (l.divided b).run peer (d (l.divided b).config) state
  (x.1, x.2.1.divided false, x.2.2)

/-- Whether an operation has the same result under both settings, and everything is the same that was
sent, logged and left behind. -/
def Alike {σ α : Type} (peer : Peer σ) (l : Line) (state : σ) (d : ServerConfig → Dialogue α) : Prop :=
  l.under peer state d true = l.under peer state d false

section

variable {σ α β : Type} {peer : Peer σ} {l : Line} {state : σ} {d : ServerConfig → Dialogue α}

theorem under_eq (b : Bool) : l.under peer state d b =
    ((l.run peer (d (l.divided b).config) state).1,
      (l.run peer (d (l.divided b).config) state).2.1.divided false,
      (l.run peer (d (l.divided b).config) state).2.2) := by
  simp only [Line.under, Line.run_divided, Line.divided_divided]

theorem alike_of_run (same : l.run peer (d (l.divided true).config) state
    = l.run peer (d (l.divided false).config) state) : Alike peer l state d := by
  rw [Alike, under_eq, under_eq, same]

theorem Alike.sent (alike : Alike peer l state d) :
    (l.run peer (d (l.divided true).config) state).2.1.sent
      = (l.run peer (d (l.divided false).config) state).2.1.sent := by
  rw [Alike, under_eq, under_eq] at alike
  exact congrArg (fun x => x.2.1.sent) alike

/-- An operation that learns a number is alike under both settings exactly if it is shown none. -/
theorem alike_learning_iff {beginning committing : Fault → Error} {learn : Dialogue Int} {s : Statement}
    {rest : ServerConfig → Int → Dialogue β} {f : β → α} (learns : learn.Learns s)
    (leaves : learn.LeavesConnected peer)
    (fails : ∀ es err, learn.Course es (.error err) → ∀ x ∈ es, ∀ n, ¬ x.Shows s n)
    (scripts : ∀ n, ∃ text next,
      (rest (l.divided true).config n).closing committing = .ask (.script text) next ∧
        ∀ es r, ((rest (l.divided false).config n).closing committing).Course es r →
          .script text ∉ requests es)
    (shape : ∀ c, d c = (learning beginning committing learn (rest c)).andThen fun a => done (.ok (f a))) :
    Alike peer l state d ↔ ∀ e ∈ (l.divided true).exchanges peer (d (l.divided true).config) state,
      ∀ n, ¬ e.Shows s n := by
  rw [Line.exchanges_divided, shape, Line.exchanges_map]
  constructor
  · intro alike e mem n shows
    have sent := alike.sent
    rw [shape, shape, Line.run_map, Line.run_map] at sent
    exact sent_learning_ne leaves fails scripts ⟨e, mem, n, shows⟩ sent
  · intro unshown
    refine alike_of_run ?_
    rw [shape, shape, Line.run_map, Line.run_map]
    have same : l.run peer (learning beginning committing learn (rest (l.divided true).config)) state
        = l.run peer (learning beginning committing learn (rest (l.divided false).config)) state := by
      apply run_learning_eq
      intro es n course inside
      obtain ⟨e, mem, shows⟩ := learns.shown es n course
      exact absurd shows (unshown e (inside e mem) n)
    rw [same]

end

/-- The statement whose answer shows a request the number of its project. -/
def numberFrom? : AuditTrail.Request → Option Statement
  | .createProject p => some (.insertProject p [.partitionNumber])
  | .dropProject id => some (.select (.partitionNumber id))
  | _ => none

section

variable {σ : Type} {peer : Peer σ} {l : Line} {state : σ}

theorem alike_createProject_iff (p : Project) :
    Alike peer l state (fun config => (store config).handle (.createProject p)) ↔
      ∀ e ∈ (l.divided true).exchanges peer
        ((store (l.divided true).config).handle (.createProject p)) state,
        ∀ n, ¬ e.Shows (.insertProject p [.partitionNumber]) n := by
  have shape (c : ServerConfig) : (store c).handle (.createProject p) =
      (learning (Fault.internal "Failed to begin transaction") (Fault.rolledBack "Failed to commit project")
        (learnNew p) (provide c p)).andThen fun _ => done (.ok Answer.done) :=
    congrArg (fun d => d.andThen fun _ => done (.ok Answer.done)) (createProject_eq c p)
  exact alike_learning_iff (learns_learnNew p) (leavesConnected_learnNew p) (fails_learnNew p)
    (scripts_provide rfl rfl p _) shape

theorem alike_dropProject_iff (id : Id) :
    Alike peer l state (fun config => (store config).handle (.dropProject id)) ↔
      ∀ e ∈ (l.divided true).exchanges peer
        ((store (l.divided true).config).handle (.dropProject id)) state,
        ∀ n, ¬ e.Shows (.select (.partitionNumber id)) n := by
  have shape (c : ServerConfig) : (store c).handle (.dropProject id) =
      (learning (Fault.internal "Failed to begin transaction")
        (Fault.rolledBack "Failed to commit project drop") (learnKnown id) (withdraw c id)).andThen
          fun _ => done (.ok Answer.done) :=
    congrArg (fun d => d.andThen fun _ => done (.ok Answer.done)) (dropProject_eq c id)
  exact alike_learning_iff (learns_learnKnown id) (leavesConnected_learnKnown id) (fails_learnKnown id)
    (scripts_withdraw rfl rfl id _) shape

theorem alike_handle_iff (r : AuditTrail.Request) :
    Alike peer l state (fun config => (store config).handle r) ↔ ∀ s, numberFrom? r = some s →
      ∀ e ∈ (l.divided true).exchanges peer ((store (l.divided true).config).handle r) state,
        ∀ n, ¬ e.Shows s n := by
  cases r with
  | createProject p =>
    simp only [numberFrom?, Option.some.injEq, forall_eq']
    exact alike_createProject_iff p
  | dropProject id =>
    simp only [numberFrom?, Option.some.injEq, forall_eq']
    exact alike_dropProject_iff id
  | _ => exact iff_of_true (alike_of_run rfl) fun _ none => by cases none

theorem planned_createProject_plain {config : ServerConfig} (plain : config.tenantPartitioning = false)
    {p : Project} {es : List Exchange} {r : Except Error Unit}
    (course : (createProject config p).Course es r) :
    Planned (.insertProject p [.partitionNumber]) (fun _ => []) es r := by
  rw [createProject_eq] at course
  refine planned_transaction (learns_learnNew p) (fun n => ?_) course
  rw [provide, if_neg (by simp [plain])]
  exact asks_done _

/-- What dropping a project asks for once its number is known, where projects are not kept apart. -/
def deletion (id : Id) : List Request :=
  [.deleteProjectChanges id, .deleteRecords id, .deleteProject id].flatMap asking

theorem planned_dropProject_plain {config : ServerConfig} (plain : config.tenantPartitioning = false)
    {id : Id} {es : List Exchange} {r : Except Error Unit}
    (course : (dropProject config id).Course es r) :
    Planned (.select (.partitionNumber id)) (fun _ => deletion id) es r := by
  rw [dropProject_eq] at course
  refine planned_transaction (learns_learnKnown id) (fun n => ?_) course
  rw [withdraw, if_neg (by simp [plain])]
  exact (asks_deleteEach [.deleteProjectChanges id, .deleteRecords id]).andThen fun _ =>
    asks_deleteEach [.deleteProject id]

end

/-! Tables -/

/-- Whether the answer to the question for the version of the tables tells that they are there. -/
def HasTables (rows : List Row) : Prop :=
  ∃ row, rows = [row] ∧ Reader.number .four row ≠ .ok 0

/-- Learns the version of the tables, which nobody else creates from then on. -/
def learnVersion : Dialogue Int :=
  (script (Fault.migration "Failed to acquire schema lock") lockScript).andThen fun _ => readVersion

/-- The rest of the creation of the tables. -/
def prepareTables (config : ServerConfig) (version : Int) : Dialogue Unit :=
  if version = 0 then
    (createTables config.tenantPartitioning).andThen fun _ => setVersion schemaVersion
  else if schemaVersion < version then
    done (.error (.migration ("database schema version " ++ toString version
      ++ " is newer than supported version " ++ toString schemaVersion)))
  else done (.ok ())

theorem ensureTables_eq (config : ServerConfig) : ensureTables config =
    learning (Fault.migration "Failed to begin schema transaction")
      (Fault.migration "Failed to commit schema") learnVersion (prepareTables config) := by
  refine congrArg connect.andThen (funext fun _ => congrArg (Dialogue.transaction _ _) ?_)
  rw [learnVersion, andThen_assoc]
  rfl

/-- Tables that have to be created have not been found. -/
theorem missing_of_learnVersion {es : List Exchange} (course : learnVersion.Course es (.ok 0)) :
    ∃ reply, ⟨.execute versionQuery, .ok reply⟩ ∈ es ∧ ¬ HasTables reply.rows := by
  obtain ⟨f | locked, others, rfl, course⟩ := course
  · cases course.2
  obtain ⟨f | created, others, rfl, course⟩ := course
  · cases course.2
  obtain ⟨f | prepared, others, rfl, course⟩ := course
  · cases course.2
  obtain ⟨f | reply, others, rfl, course⟩ := course
  · cases course.2
  refine ⟨reply, by simp, ?_⟩
  rintro ⟨row, only, other⟩
  obtain ⟨rows, affected⟩ := reply
  cases only
  exact other (course_demand_ok.mp course).2

theorem alike_ensureTables {σ : Type} {peer : Peer σ} {l : Line} {state : σ}
    (there : ∀ reply, ⟨.execute versionQuery, .ok reply⟩ ∈
        (l.divided true).exchanges peer (ensureTables (l.divided true).config) state →
      HasTables reply.rows) : Alike peer l state ensureTables := by
  rw [Line.exchanges_divided, ensureTables_eq] at there
  refine alike_of_run ?_
  rw [ensureTables_eq, ensureTables_eq]
  refine run_learning_eq fun es version course inside => ?_
  by_cases new : version = 0
  · subst new
    obtain ⟨reply, mem, missing⟩ := missing_of_learnVersion course
    exact absurd (there reply (inside _ mem)) missing
  · simp only [prepareTables, if_neg new]

/-- Whether projects are kept apart is looked at whenever a server shows the number of a project, and not
only when the tables are created. Whatever a server answers, two stores that differ in it are alike in
every request exactly if no number is shown, and in the creation of tables if those are there already.
With a number that is shown one creates or drops the partitions of a project, and the other does not. -/
theorem partitioning_is_read_with_every_number {σ : Type} (peer : Peer σ) (l : Line) (state : σ) :
    let on := l.divided true
    (∀ r, Alike peer l state (fun config => (store config).handle r) ↔
      ∀ s, numberFrom? r = some s →
        ∀ e ∈ on.exchanges peer ((store on.config).handle r) state, ∀ n, ¬ e.Shows s n) ∧
    ((∀ reply, ⟨.execute versionQuery, .ok reply⟩ ∈ on.exchanges peer (ensureTables on.config) state →
      HasTables reply.rows) → Alike peer l state ensureTables) ∧
    ∀ b, (∀ p, Follows peer (l.divided b) state ((store (l.divided b).config).createProject p)
        (.insertProject p [.partitionNumber]) fun n => if b then creation p n else []) ∧
      ∀ id, Follows peer (l.divided b) state ((store (l.divided b).config).dropProject id)
        (.select (.partitionNumber id)) fun n => if b then removal id n else deletion id := by
  refine ⟨alike_handle_iff, alike_ensureTables, fun b => ?_⟩
  cases b with
  | true =>
    constructor
    · exact fun p => .of_courses (fun _ _ course => planned_createProject rfl course) peer _ state
    · exact fun id => .of_courses (fun _ _ course => planned_dropProject rfl course) peer _ state
  | false =>
    constructor
    · exact fun p => .of_courses (fun _ _ course => planned_createProject_plain rfl course) peer _ state
    · exact fun id => .of_courses (fun _ _ course => planned_dropProject_plain rfl course) peer _ state

/-- A project that is refused is refused under both settings alike, and tables that are there are left
alone. -/
theorem partitioning_is_read_with_every_number_refused :
    Alike (Peer.scripted true) (Line.idle .default)
      ⟨.welcome, .ok .empty, .ok .empty, [.answer (.error .refused)]⟩
      (fun config => (store config).handle (.createProject default)) ∧
    Alike (Peer.scripted true) (Line.idle .default)
      ⟨.welcome, .ok .empty, .ok .empty, [.answer (.ok .empty), .answer (.ok .empty),
        .answer (.ok ⟨[[(.version, .integer .four 1)]], 1⟩)]⟩ ensureTables := by
  constructor
  · refine ((partitioning_is_read_with_every_number (Peer.scripted true) (Line.idle .default) _).1
      (.createProject default)).mpr ?_
    rintro s same e mem n ⟨asked, reply, row, answer, -⟩
    cases same
    have refused : ∀ e ∈ ((Line.idle .default).divided true).exchanges (Peer.scripted true)
        ((store ((Line.idle .default).divided true).config).handle (.createProject default))
        ⟨.welcome, .ok .empty, .ok .empty, [.answer (.error .refused)]⟩,
        e.request = .execute (.statement (.insertProject default [.partitionNumber])) →
          e.answer = .error .refused := by decide +kernel
    cases answer.symm.trans (refused e mem asked)
  · refine (partitioning_is_read_with_every_number (Peer.scripted true) (Line.idle .default) _).2.1 ?_
    intro reply mem
    have first : ∀ e ∈ ((Line.idle .default).divided true).exchanges (Peer.scripted true)
        (ensureTables ((Line.idle .default).divided true).config)
        ⟨.welcome, .ok .empty, .ok .empty, [.answer (.ok .empty), .answer (.ok .empty),
          .answer (.ok ⟨[[(.version, .integer .four 1)]], 1⟩)]⟩,
        e.request = .execute versionQuery → e.answer = .ok ⟨[[(.version, .integer .four 1)]], 1⟩ := by
      decide +kernel
    cases first _ mem rfl
    exact ⟨_, rfl, by decide⟩

/-- On a line that was shown tables that are there, two stores that differ in the setting send different
things when the server shows the number 0 for a new project. -/
theorem partitioning_is_read_after_creation : ¬ ∀ (script : Script) (r : AuditTrail.Request),
    let peer := Peer.scripted true
    let l := Line.idle .default
    let opened := l.run peer (ensureTables .default) script
    opened.1 = .ok () →
    (∀ reply, ⟨.execute versionQuery, .ok reply⟩ ∈ l.exchanges peer (ensureTables .default) script →
      HasTables reply.rows) →
    Alike peer opened.2.1 opened.2.2 fun config => (store config).handle r := by
  intro alike_opened
  let script : Script := ⟨.welcome, .ok .empty, .ok .empty, [.answer (.ok .empty), .answer (.ok .empty),
    .answer (.ok ⟨[[(.version, .integer .four 1)]], 1⟩),
    .answer (.ok ⟨[[(.partitionNumber, .integer .eight 0)]], 1⟩)]⟩
  have first : ∀ e ∈ (Line.idle .default).exchanges (Peer.scripted true) (ensureTables .default) script,
      e.request = .execute versionQuery → e.answer = .ok ⟨[[(.version, .integer .four 1)]], 1⟩ := by
    decide +kernel
  have alike := alike_opened script (.createProject default) (by decide +kernel) fun reply mem => by
    cases first _ mem rfl
    exact ⟨_, rfl, by decide⟩
  exact absurd alike.sent (by decide +kernel)

end AuditTrail.Server
