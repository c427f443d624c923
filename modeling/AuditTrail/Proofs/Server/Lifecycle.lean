import AuditTrail.Proofs.Result
import AuditTrail.Proofs.Server.Course
import AuditTrail.Proofs.Server.Partition
import AuditTrail.Server.Script
import AuditTrail.Server.Store
import Mathlib.Data.List.Pairwise

/-! How the partitions of a project come and go. Creating and dropping a project both learn the number of
the project from one statement and then follow a plan that the number fixes, as far as the server lets
them. What is asked is therefore always the beginning of a plan, and a plan names the partitions of its
number only. Over a run in which every project gets a number of its own, the tables that are dropped with
a project are those that were created with it. -/
namespace AuditTrail.Server

def requests (es : List Exchange) : List Request := es.map (·.request)

@[simp] theorem requests_append (es fs : List Exchange) :
    requests (es ++ fs) = requests es ++ requests fs := List.map_append

@[simp] theorem requests_cons (e : Exchange) (es : List Exchange) :
    requests (e :: es) = e.request :: requests es := rfl

@[simp] theorem requests_nil : requests [] = [] := rfl

/-- A request that is made once is answered once. -/
theorem eq_of_count_le_one {es : List Exchange} {q : Request} (once : (requests es).count q ≤ 1)
    {e f : Exchange} (he : e ∈ es) (hf : f ∈ es) (asked : e.request = q) (again : f.request = q) :
    e = f := by
  have short : (es.filter (·.request = q)).length ≤ 1 := by
    rw [← List.countP_eq_length_filter]
    rwa [requests, List.count, List.countP_map] at once
  have first : e ∈ es.filter (·.request = q) := List.mem_filter.mpr ⟨he, decide_eq_true asked⟩
  have second : f ∈ es.filter (·.request = q) := List.mem_filter.mpr ⟨hf, decide_eq_true again⟩
  generalize es.filter (·.request = q) = found at short first second
  rcases found with _ | ⟨x, _ | ⟨y, rest⟩⟩
  · contradiction
  · exact (List.mem_singleton.mp first).trans (List.mem_singleton.mp second).symm
  · simp at short

/-! Dialogues that follow a plan -/

namespace Dialogue

variable {α β : Type} {plan more : List Request} {report : Fault → Error}

/-- Whether a dialogue asks what a plan says, in order, and has a result only if it has asked all of it
and was answered well throughout. -/
def Asks (plan : List Request) (d : Dialogue α) : Prop :=
  ∀ es r, d.Course es r → requests es <+: plan ∧
    ∀ a, r = .ok a → requests es = plan ∧ ∀ e ∈ es, e.answer.isOk = true

theorem asks_done (r : Except Error α) : (done r).Asks [] := by
  rintro es _ ⟨rfl, rfl⟩
  exact ⟨List.nil_prefix, fun a _ => ⟨rfl, by simp⟩⟩

theorem Asks.andThen {d : Dialogue α} {f : α → Dialogue β} (first : d.Asks plan)
    (next : ∀ a, (f a).Asks more) : (d.andThen f).Asks (plan ++ more) := by
  intro es r course
  obtain ⟨e, failed, rfl⟩ | ⟨front, others, a, rfl, came, rest⟩ := course_andThen.mp course
  · constructor
    · exact (first es _ failed).1.trans (List.prefix_append _ _)
    · intro b impossible
      contradiction
  · obtain ⟨whole, answered⟩ := (first front _ came).2 a rfl
    obtain ⟨started, finished⟩ := next a others r rest
    rw [requests_append, whole]
    constructor
    · exact (List.prefix_append_right_inj plan).mpr started
    · intro b result
      obtain ⟨remaining, well⟩ := finished b result
      refine ⟨by rw [remaining], ?_⟩
      intro e mem
      rcases List.mem_append.mp mem with early | late
      · exact answered e early
      · exact well e late

theorem asks_request (q : Request) : (request report q).Asks [q] := by
  intro es r course
  obtain ⟨answer, rfl, rfl⟩ := course_request.mp course
  refine ⟨List.prefix_refl _, ?_⟩
  intro reply result
  cases answer with
  | error f => cases result
  | ok reply => exact ⟨rfl, by simp [Except.isOk, Except.toBool]⟩

/-- The requests for a statement that is prepared and run. -/
def asking (s : Statement) : List Request :=
  [.prepare (.statement s), .execute (.statement s)]

theorem asks_perform (s : Statement) : (Dialogue.perform report (.statement s)).Asks (asking s) :=
  (asks_request _).andThen fun _ => asks_request _

theorem asks_script (text : String) : (script report text).Asks [.script text] :=
  (asks_request _).andThen fun _ => asks_done _

end Dialogue

open Dialogue

theorem asks_scriptEach (doing : String) (text : Partition → String) (ps : List Partition) :
    (scriptEach doing text ps).Asks (ps.map fun p => .script (text p)) := by
  induction ps with
  | nil => exact asks_done _
  | cons p rest ih => exact (asks_script _).andThen fun _ => ih

/-! Learning a number -/

/-- Whether the answer to a statement shows the number of a project. -/
def Exchange.Shows (s : Statement) (n : Int) (e : Exchange) : Prop :=
  e.request = .execute (.statement s) ∧ ∃ reply row, e.answer = .ok reply ∧ reply.rows = [row] ∧
    Reader.number .eight row = .ok n

/-- Whether a dialogue runs one statement and has the number as its result that it was shown. -/
structure Dialogue.Learns (s : Statement) (d : Dialogue Int) : Prop where
  asks : d.Asks (asking s)
  shown : ∀ es n, d.Course es (.ok n) → ∃ e ∈ es, e.Shows s n

theorem asks_readNumber (row : Row) : (readNumber row).Asks [] := asks_done _

/-- A number is learned from the only row that a statement gives. -/
theorem learns_found {report : Fault → Error} {s : Statement} {e : Error} {f : Option Row → Dialogue Int}
    (missing : f none = done (.error e)) (found : ∀ row, f (some row) = readNumber row) :
    ((Dialogue.performOptional report (.statement s)).andThen f).Learns s := by
  constructor
  · have optional : (Dialogue.performOptional report (.statement s)).Asks (asking s) := by
      refine (asks_perform s).andThen fun reply => ?_
      split <;> exact asks_done _
    rw [← List.append_nil (asking s)]
    apply optional.andThen
    rintro (_ | row)
    · rw [missing]
      exact asks_done _
    · rw [found]
      exact asks_readNumber row
  · intro es n course
    obtain ⟨e, -, same⟩ | ⟨front, others, o, rfl, came, rest⟩ := course_andThen.mp course
    · cases same
    cases o with
    | none =>
      rw [missing] at rest
      cases rest.2
    | some row =>
      rw [found] at rest
      obtain ⟨rfl, number⟩ := course_demand_ok.mp rest
      obtain ⟨prepared, reply, rfl, rows⟩ := course_performOptional_ok.mp came
      exact ⟨⟨.execute (.statement s), .ok reply⟩, by simp [answered], rfl, reply, row, rfl, rows, number⟩

/-! Transactions that follow the plan of a number -/

/-- The requests of a transaction up to the one that shows the number. -/
def opening (s : Statement) : List Request := .connection :: .begin :: asking s

/-- All the requests of a transaction, by what is asked for when the number is known. -/
def planFor (s : Statement) (more : List Request) : List Request := opening s ++ more ++ [.commit]

/-- The exchanges of a transaction that learns a number and follows the plan of it, and its result.
Whatever is answered, what is asked is the beginning of a plan, and maybe a rollback. -/
structure Planned {α : Type} (s : Statement) (more : Int → List Request) (es : List Exchange)
    (r : Except Error α) : Prop where
  /-- A plan goes beyond the opening only when its number was shown. It is asked to the end, or it is
  broken off, and maybe rolled back. -/
  asked : (∃ n, (∃ e ∈ es, e.Shows s n) ∧ requests es = planFor s (more n)) ∨
    ∃ asked ended, requests es = asked ++ ended ∧ (ended = [] ∨ ended = [.rollback]) ∧
      (asked <+: opening s ∨ ∃ n, (∃ e ∈ es, e.Shows s n) ∧ asked <+: opening s ++ more n)
  /-- There is a result only of a whole plan, and when all of it has succeeded. -/
  finished : ∀ a, r = .ok a → ∃ n, (∃ e ∈ es, e.Shows s n) ∧ requests es = planFor s (more n) ∧
    ∀ e ∈ es, e.answer.isOk = true

section Transactions

variable {α β : Type} {s : Statement} {more : Int → List Request} {es : List Exchange}
  {learn : Dialogue Int} {rest : Int → Dialogue α} {beginning committing : Fault → Error}

theorem Planned.map {r : Except Error α} (f : α → β) (planned : Planned s more es r) :
    Planned s more es (r.map f) := by
  refine ⟨planned.asked, ?_⟩
  intro b result
  obtain ⟨a, rfl, -⟩ := map_eq_ok result
  exact planned.finished a rfl

theorem Planned.broken {e : Error} (asked ended : List Request) (same : requests es = asked ++ ended)
    (ends : ended = [] ∨ ended = [.rollback]) (within : asked <+: opening s ∨
      ∃ n, (∃ e ∈ es, e.Shows s n) ∧ asked <+: opening s ++ more n) :
    Planned (α := α) s more es (.error e) := by
  refine ⟨.inr ⟨asked, ended, same, ends, within⟩, ?_⟩
  intro a impossible
  contradiction

theorem asks_connect : connect.Asks [.connection] :=
  (asks_request _).andThen fun _ => asks_done _

theorem planned_transaction (learns : learn.Learns s) (asks : ∀ n, (rest n).Asks (more n))
    {r : Except Error α} (course : (connect.andThen fun _ =>
      Dialogue.transaction beginning committing (learn.andThen rest)).Course es r) :
    Planned s more es r := by
  obtain ⟨e, failed, rfl⟩ | ⟨front, others, u, rfl, connected, course⟩ := course_andThen.mp course
  · have started := (asks_connect _ _ failed).1
    exact .broken (requests es) [] (by simp) (.inl rfl) (.inl (started.trans ⟨_, rfl⟩))
  obtain ⟨reached, welcome⟩ := (asks_connect _ _ connected).2 u rfl
  obtain ⟨f, answer, rfl, rfl⟩ | ⟨reply, done, last, result, rfl, worked, closed⟩ :=
    course_transaction course
  · exact .broken [.connection, .begin] [.rollback] (by simp [reached]) (.inr rfl) (.inl ⟨asking s, rfl⟩)
  obtain ⟨e, failed, rfl⟩ | ⟨first, later, n, rfl, learned, following⟩ := course_andThen.mp worked
  · -- The number was not learned, so the work is given up.
    obtain ⟨answer, rfl, rfl⟩ := course_giveUp.mp closed
    have started := (learns.asks _ _ failed).1
    apply Planned.broken (.connection :: .begin :: requests done) [.rollback] (by simp [reached])
      (.inr rfl)
    left
    simpa [opening] using started
  -- From here on the number is known, and the plan is the one for it.
  obtain ⟨asked, understood⟩ := (learns.asks _ _ learned).2 n rfl
  obtain ⟨e, mem, shows⟩ := learns.shown _ _ learned
  obtain ⟨started, finished⟩ := asks n _ _ following
  have shown : ∃ e ∈ front ++ ⟨.begin, .ok reply⟩ :: (first ++ later ++ last), e.Shows s n :=
    ⟨e, by simp [mem], shows⟩
  obtain ⟨a, final, rfl, rfl, rfl⟩ | ⟨a, f, rfl, rfl, rfl⟩ | ⟨e, answer, rfl, rfl, rfl⟩ :=
    course_close closed
  · obtain ⟨completed, well⟩ := finished a rfl
    have whole : requests (front ++ ⟨.begin, .ok reply⟩ :: (first ++ later ++ [⟨.commit, .ok final⟩]))
        = planFor s (more n) := by
      simp [reached, asked, completed, planFor, opening]
    refine ⟨.inl ⟨n, shown, whole⟩, ?_⟩
    intro b _
    refine ⟨n, shown, whole, ?_⟩
    intro x there
    simp only [List.mem_append, List.mem_cons, List.not_mem_nil, or_false] at there
    rcases there with there | rfl | (there | there) | rfl
    · exact welcome x there
    · rfl
    · exact understood x there
    · exact well x there
    · rfl
  · obtain ⟨completed, -⟩ := finished a rfl
    refine ⟨.inl ⟨n, shown, ?_⟩, by simp⟩
    simp [reached, asked, completed, planFor, opening]
  · apply Planned.broken (.connection :: .begin :: (asking s ++ requests later)) [.rollback]
      (by simp [reached, asked]) (.inr rfl)
    right
    refine ⟨n, shown, ?_⟩
    simpa [opening] using started

end Transactions

/-! The two operations -/

theorem Dialogue.Learns.note {s : Statement} {d : Dialogue Int} (mentioned : Statement)
    (learns : d.Learns s) : (Dialogue.note mentioned d).Learns s :=
  ⟨learns.asks, learns.shown⟩

/-- Learns the number of a project by creating it. -/
def learnNew (p : Project) : Dialogue Int :=
  let s := Statement.insertProject p [.partitionNumber]
  Dialogue.note s ((Dialogue.performOptional (Fault.internal "Failed to insert project")
    (.statement s)).andThen fun
      | some row => readNumber row
      | none => done (.error (Fault.internal "Failed to insert project" .rowCount)))

/-- Learns the number of a project that is there. -/
def learnKnown (id : Id) : Dialogue Int :=
  let s := Statement.select (.partitionNumber id)
  Dialogue.note s ((Dialogue.performOptional (Fault.internal "Failed to read project")
    (.statement s)).andThen fun
      | some row => readNumber row
      | none => done (.error (.projectNotFound id)))

/-- The rest of the creation of a project. -/
def provide (config : ServerConfig) (p : Project) (n : Int) : Dialogue Unit :=
  if config.tenantPartitioning then
    scriptEach "Failed to create partition" (Partition.create · p.id) (partitionsOf n)
  else done (.ok ())

/-- The rest of the end of a project. -/
def withdraw (config : ServerConfig) (id : Id) (n : Int) : Dialogue Unit :=
  (if config.tenantPartitioning then
    scriptEach "Failed to drop partition" Partition.drop (partitionsOf n)
  else deleteEach [.deleteProjectChanges id, .deleteRecords id]).andThen
    fun _ => deleteEach [.deleteProject id]

/-- What creating a project asks for once its number is known, where projects are kept apart. -/
def creation (p : Project) (n : Int) : List Request :=
  (partitionsOf n).map fun q => .script (q.create p.id)

/-- What dropping a project asks for once its number is known, where projects are kept apart. -/
def removal (id : Id) (n : Int) : List Request :=
  (partitionsOf n).map (fun q => .script q.drop) ++ asking (.deleteProject id)

section Operations

variable {config : ServerConfig} {es : List Exchange}

theorem learns_learnNew (p : Project) : (learnNew p).Learns (.insertProject p [.partitionNumber]) :=
  Learns.note _ (learns_found rfl fun _ => rfl)

theorem learns_learnKnown (id : Id) : (learnKnown id).Learns (.select (.partitionNumber id)) :=
  Learns.note _ (learns_found rfl fun _ => rfl)

theorem createProject_eq (config : ServerConfig) (p : Project) : createProject config p =
    connect.andThen fun _ => Dialogue.transaction (Fault.internal "Failed to begin transaction")
      (Fault.rolledBack "Failed to commit project") ((learnNew p).andThen (provide config p)) := by
  refine congrArg connect.andThen (funext fun _ => congrArg (Dialogue.transaction _ _) ?_)
  rw [learnNew, andThen, andThen_assoc]
  refine congrArg (Dialogue.note _) ?_
  rw [andThen, Dialogue.bind_eq, Dialogue.performOne, Dialogue.bind_eq, andThen_assoc]
  refine congrArg (Dialogue.andThen _) (funext fun found => ?_)
  cases found with
  | none => rfl
  | some row => rfl

theorem dropProject_eq (config : ServerConfig) (id : Id) : dropProject config id =
    connect.andThen fun _ => Dialogue.transaction (Fault.internal "Failed to begin transaction")
      (Fault.rolledBack "Failed to commit project drop") ((learnKnown id).andThen (withdraw config id)) := by
  refine congrArg connect.andThen (funext fun _ => congrArg (Dialogue.transaction _ _) ?_)
  rw [learnKnown, andThen, andThen_assoc]
  refine congrArg (Dialogue.note _) ?_
  refine congrArg (Dialogue.andThen _) (funext fun found => ?_)
  cases found with
  | none => rfl
  | some row =>
    refine congrArg (readNumber row).andThen (funext fun n => ?_)
    unfold withdraw
    cases config.tenantPartitioning <;> rfl

theorem planned_createProject (divided : config.tenantPartitioning = true) {p : Project}
    {r : Except Error Unit} (course : (createProject config p).Course es r) :
    Planned (.insertProject p [.partitionNumber]) (creation p) es r := by
  rw [createProject_eq] at course
  refine planned_transaction (learns_learnNew p) (fun n => ?_) course
  rw [provide, if_pos divided]
  exact asks_scriptEach _ _ _

theorem planned_dropProject (divided : config.tenantPartitioning = true) {id : Id}
    {r : Except Error Unit} (course : (dropProject config id).Course es r) :
    Planned (.select (.partitionNumber id)) (removal id) es r := by
  rw [dropProject_eq] at course
  refine planned_transaction (learns_learnKnown id) (fun n => ?_) course
  rw [withdraw, if_pos divided]
  exact (asks_scriptEach _ _ _).andThen fun _ => (asks_perform _).andThen fun _ => asks_done _

end Operations

/-! What is sent -/

/-- What a line remembers of a request that is answered well. -/
def Request.message? (q : Request) : Option Sent := Line.trace? q (.ok Reply.empty)

/-- Whatever is answered well has been sent. -/
theorem spoken_answered {es : List Exchange} (answered : ∀ e ∈ es, e.answer.isOk = true) :
    spoken true es = (requests es).filterMap Request.message? := by
  induction es with
  | nil => rfl
  | cons e rest ih =>
    obtain ⟨first, others⟩ := List.forall_mem_cons.mp answered
    obtain ⟨q, f | reply⟩ := e
    · contradiction
    · have same := ih others
      cases q <;> simp [spoken, Request.message?, Line.trace?, Line.isLoss, List.filterMap_cons, same]

theorem spoken_plan {s : Statement} {more : List Request} {es : List Exchange}
    (asked : requests es = planFor s more) (answered : ∀ e ∈ es, e.answer.isOk = true)
    (connected : Bool) : spoken connected es
      = [.begin, .query (.statement s)] ++ more.filterMap Request.message? ++ [.commit] := by
  have same : spoken connected es = spoken true es := by
    cases es with
    | nil => cases asked
    | cons e rest =>
      obtain ⟨q, f | reply⟩ := e
      · have := answered _ List.mem_cons_self
        contradiction
      · obtain ⟨rfl, -⟩ := List.cons.inj asked
        simp [spoken, Except.isOk, Except.toBool]
  rw [same, spoken_answered answered, asked, planFor, List.filterMap_append, List.filterMap_append]
  rfl

/-- An operation that follows the plan of a number, as it is carried out on a line. -/
structure Follows {σ α : Type} (peer : Peer σ) (l : Line) (state : σ) (d : Dialogue α) (s : Statement)
    (more : Int → List Request) : Prop where
  planned : Planned s more (l.exchanges peer d state) (l.run peer d state).1
  /-- Apart from what opens a connection, exactly a whole plan is sent for a result. -/
  sends : ∀ a, (l.run peer d state).1 = .ok a → ∃ n new,
    (∃ e ∈ l.exchanges peer d state, e.Shows s n) ∧
    (l.run peer d state).2.1.sent = l.sent ++ new ∧ new.filter (!·.opens)
      = [.begin, .query (.statement s)] ++ (more n).filterMap Request.message? ++ [.commit]

theorem Follows.of_courses {σ α : Type} {d : Dialogue α} {s : Statement} {more : Int → List Request}
    (planned : ∀ es r, d.Course es r → Planned s more es r) (peer : Peer σ) (l : Line) (state : σ) :
    Follows peer l state d s more := by
  have course := planned _ _ (Line.course_exchanges peer d l state)
  refine ⟨course, ?_⟩
  intro a result
  obtain ⟨n, shown, asked, answered⟩ := course.finished a result
  obtain ⟨new, sent, heard⟩ := Line.run_sent peer d l state
  exact ⟨n, new, shown, sent, heard.trans (spoken_plan asked answered l.connected)⟩

/-! The tables that scripts name -/

/-- The name that stands after some words at the beginning of a script. -/
def nameAfter? (words text : String) : Option String :=
  match Split.after? words.toList text.toList with
  | some rest => (Split.first? ' ' rest).map fun (name, _) => String.ofList name
  | none => none

def Request.nameAfter? (words : String) : Request → Option String
  | .script text => Server.nameAfter? words text
  | _ => none

def tablesCreated (qs : List Request) : List String :=
  qs.filterMap (Request.nameAfter? "CREATE TABLE ")

def tablesDropped (qs : List Request) : List String :=
  qs.filterMap (Request.nameAfter? "DROP TABLE IF EXISTS ")

section Names

variable {s : Statement} {n : Int}

theorem nameAfter?_append {words name rest : String} {tail : List Char} (whole : ' ' ∉ name.toList)
    (blank : rest.toList = ' ' :: tail) : nameAfter? words (words ++ (name ++ rest)) = some name := by
  have after (front back : List Char) : Split.after? front (front ++ back) = some back := by
    induction front with
    | nil => rfl
    | cons c _ ih => simp [Split.after?, ih]
  rw [nameAfter?, String.toList_append, after, String.toList_append, blank]
  simp [Split.first?_append _ whole]

/-- The names of partitions are single words. -/
theorem blank_not_mem_name {q : Partition} (mem : q ∈ partitionsOf n) : ' ' ∉ q.name.toList := by
  obtain ⟨t, divided, rfl⟩ := List.mem_map.mp mem
  have number : ' ' ∉ (toString n).toList := Partition.not_mem_toString (by decide) (by decide)
  have table : ' ' ∉ (t.name ++ "_ppn_").toList := by
    cases t <;> decide
  rw [Partition.name, String.toList_append, List.mem_append]
  exact not_or.mpr ⟨table, number⟩

theorem names_scripts {words : String} {text : Partition → String}
    (named : ∀ q ∈ partitionsOf n, nameAfter? words (text q) = some q.name) :
    ((partitionsOf n).map fun q => Request.script (text q)).filterMap (Request.nameAfter? words)
      = (partitionsOf n).map Partition.name := by
  rw [List.filterMap_map, ← List.filterMap_eq_map]
  exact List.filterMap_congr named

theorem tablesCreated_creation (p : Project) :
    tablesCreated (creation p n) = (partitionsOf n).map Partition.name := by
  have named (q : Partition) (mem : q ∈ partitionsOf n) :
      nameAfter? "CREATE TABLE " (q.create p.id) = some q.name := by
    let rest := " PARTITION OF " ++ (q.table ++ (" FOR VALUES IN ('" ++ (p.id.text ++ "')")))
    have script : q.create p.id = "CREATE TABLE " ++ (q.name ++ rest) := by
      unfold Partition.create
      simp only [rest, String.append_assoc]
    have word : " PARTITION OF ".toList = ' ' :: "PARTITION OF ".toList := by decide
    have blank := String.toList_append (s := " PARTITION OF ")
      (t := q.table ++ (" FOR VALUES IN ('" ++ (p.id.text ++ "')")))
    rw [word, List.cons_append] at blank
    rw [script]
    exact nameAfter?_append (blank_not_mem_name mem) blank
  exact names_scripts named

theorem tablesDropped_removal (id : Id) :
    tablesDropped (removal id n) = (partitionsOf n).map Partition.name := by
  have named (q : Partition) (mem : q ∈ partitionsOf n) :
      nameAfter? "DROP TABLE IF EXISTS " q.drop = some q.name := by
    have blank : " CASCADE".toList = ' ' :: "CASCADE".toList := by decide
    unfold Partition.drop
    rw [String.append_assoc]
    exact nameAfter?_append (blank_not_mem_name mem) blank
  rw [tablesDropped, removal, List.filterMap_append, names_scripts named]
  exact List.append_nil _

variable {s : Statement} {more : Int → List Request} {es : List Exchange} {α : Type}
  {r : Except Error α} {words : String}

theorem names_plan (more : List Request) : (planFor s more).filterMap (Request.nameAfter? words)
    = more.filterMap (Request.nameAfter? words) := by
  rw [planFor, List.filterMap_append, List.filterMap_append]
  exact List.append_nil _

/-- Only tables are named that the plan for a number names that was shown. -/
theorem Planned.names (planned : Planned s more es r) {name : String}
    (named : name ∈ (requests es).filterMap (Request.nameAfter? words)) : ∃ n,
      (∃ e ∈ es, e.Shows s n) ∧ name ∈ (more n).filterMap (Request.nameAfter? words) := by
  rcases planned.asked with ⟨n, shown, whole⟩ | ⟨asked, ended, same, ends, within⟩
  · rw [whole, names_plan] at named
    exact ⟨n, shown, named⟩
  · rw [same, List.filterMap_append, List.mem_append] at named
    rcases named with named | named
    · rcases within with early | ⟨n, shown, early⟩
      · have := (early.filterMap (Request.nameAfter? words)).subset named
        contradiction
      · have inside := (early.filterMap (Request.nameAfter? words)).subset named
        rw [List.filterMap_append] at inside
        exact ⟨n, shown, inside⟩
    · rcases ends with rfl | rfl <;> contradiction

/-- A transaction of which the end was asked for has followed the whole plan. -/
theorem Planned.whole (planned : Planned s more es r) (work : ∀ n, .commit ∉ more n)
    (ended : .commit ∈ requests es) : ∃ n, (∃ e ∈ es, e.Shows s n) ∧ requests es = planFor s (more n) := by
  rcases planned.asked with whole | ⟨asked, last, same, ends, within⟩
  · exact whole
  have inside : .commit ∈ asked := by
    rw [same, List.mem_append] at ended
    rcases ended with front | back
    · exact front
    · rcases ends with rfl | rfl <;> simp at back
  have start : .commit ∉ opening s := by simp [opening, asking]
  rcases within with early | ⟨n, shown, early⟩
  · exact absurd (early.subset inside) start
  · have there := early.subset inside
    rw [List.mem_append] at there
    exact absurd there (not_or.mpr ⟨start, work n⟩)

/-- The statement that shows the number is run once, so it shows one number. -/
theorem Planned.shows_one (planned : Planned s more es r)
    (work : ∀ n, .execute (.statement s) ∉ more n) {m n : Int} (first : ∃ e ∈ es, e.Shows s m)
    (second : ∃ e ∈ es, e.Shows s n) : m = n := by
  have start : (opening s).count (.execute (.statement s)) = 1 := by simp [opening, asking]
  have once : (requests es).count (.execute (.statement s)) ≤ 1 := by
    rcases planned.asked with ⟨k, -, whole⟩ | ⟨asked, ended, same, ends, within⟩
    · rw [whole, planFor, List.count_append, List.count_append, start,
        List.count_eq_zero.mpr (work k)]
      simp
    · have last : ended.count (.execute (.statement s)) = 0 := by
        rcases ends with rfl | rfl <;> simp
      rw [same, List.count_append, last, Nat.add_zero]
      rcases within with early | ⟨k, -, early⟩
      · exact (early.sublist.count_le _).trans start.le
      · refine (early.sublist.count_le _).trans ?_
        rw [List.count_append, start, List.count_eq_zero.mpr (work k)]
  obtain ⟨e, mem, asked, reply, row, answer, rows, number⟩ := first
  obtain ⟨f, there, again, other, line, answered, lines, figure⟩ := second
  cases eq_of_count_le_one once mem there asked again
  cases answer.symm.trans answered
  cases rows.symm.trans lines
  exact Except.ok.inj (number.symm.trans figure)

end Names

/-! Runs -/

/-- An operation that was carried out: what it was asked for, what it asked the server and what the server
answered, and its result. -/
structure Conversation where
  request : AuditTrail.Request
  exchanges : List Exchange
  result : Except Error Answer

namespace Conversation

/-- Whether a store comes to such a conversation when it is answered so. -/
def Possible (config : ServerConfig) (c : Conversation) : Prop :=
  ((store config).handle c.request).Course c.exchanges c.result

/-- The conversation in which a request is carried out on a line. -/
def onLine {σ : Type} (peer : Peer σ) (config : ServerConfig) (l : Line) (state : σ)
    (r : AuditTrail.Request) : Conversation :=
  ⟨r, l.exchanges peer ((store config).handle r) state, (l.run peer ((store config).handle r) state).1⟩

theorem possible_onLine {σ : Type} (peer : Peer σ) (config : ServerConfig) (l : Line) (state : σ)
    (r : AuditTrail.Request) : (onLine peer config l state r).Possible config :=
  Line.course_exchanges peer ((store config).handle r) l state

/-- Whether the creation of a project was shown a number. -/
def Obtains (c : Conversation) (id : Id) (n : Int) : Prop :=
  ∃ p : Project, p.id = id ∧ c.request = .createProject p ∧
    ∃ e ∈ c.exchanges, e.Shows (.insertProject p [.partitionNumber]) n

/-- Whether the end of a project was shown a number. -/
def Finds (c : Conversation) (id : Id) (n : Int) : Prop :=
  c.request = .dropProject id ∧ ∃ e ∈ c.exchanges, e.Shows (.select (.partitionNumber id)) n

/-- Whether a commit was asked for. -/
def Commits (c : Conversation) : Prop := .commit ∈ requests c.exchanges

instance (c : Conversation) : Decidable c.Commits := inferInstanceAs (Decidable (_ ∈ _))

section

variable {config : ServerConfig} {c : Conversation} {id : Id} {n : Int}

theorem Possible.creates (possible : c.Possible config) (divided : config.tenantPartitioning = true)
    {p : Project} (asked : c.request = .createProject p) :
    Planned (.insertProject p [.partitionNumber]) (creation p) c.exchanges c.result := by
  unfold Possible at possible
  rw [asked] at possible
  obtain ⟨r, course, same⟩ := course_map possible
  rw [same]
  exact (planned_createProject divided course).map _

theorem Possible.drops (possible : c.Possible config) (divided : config.tenantPartitioning = true)
    (asked : c.request = .dropProject id) :
    Planned (.select (.partitionNumber id)) (removal id) c.exchanges c.result := by
  unfold Possible at possible
  rw [asked] at possible
  obtain ⟨r, course, same⟩ := course_map possible
  rw [same]
  exact (planned_dropProject divided course).map _

/-- The creation of a project that has asked for its end has created the partitions of its number. -/
theorem Possible.created (possible : c.Possible config) (divided : config.tenantPartitioning = true)
    (obtains : c.Obtains id n) (commits : c.Commits) :
    tablesCreated (requests c.exchanges) = (partitionsOf n).map Partition.name := by
  obtain ⟨p, rfl, asked, shown⟩ := obtains
  have planned := possible.creates divided asked
  obtain ⟨m, learned, whole⟩ := planned.whole (by simp [creation]) commits
  cases planned.shows_one (by simp [creation]) learned shown
  rw [whole, tablesCreated, names_plan]
  exact tablesCreated_creation p

/-- Dropping a project names only partitions of a number that was shown. -/
theorem Possible.dropped (possible : c.Possible config) (divided : config.tenantPartitioning = true)
    (asked : c.request = .dropProject id) {name : String}
    (named : name ∈ tablesDropped (requests c.exchanges)) :
    ∃ n, c.Finds id n ∧ name ∈ (partitionsOf n).map Partition.name := by
  obtain ⟨n, shown, inside⟩ := (possible.drops divided asked).names named
  have whole := tablesDropped_removal (n := n) id
  rw [tablesDropped] at whole
  rw [whole] at inside
  exact ⟨n, ⟨asked, shown⟩, inside⟩

end

end Conversation

/-- What a server promises about the numbers of projects over a run: it never hands out a number twice,
and the number that it knows a project by was handed out when the project was created. -/
structure HandsOutNumbers (run : List Conversation) : Prop where
  distinct : run.Pairwise fun c d => ∀ i j n, c.Obtains i n → ¬ d.Obtains j n
  known : ∀ before d after, run = before ++ d :: after → ∀ id n, d.Finds id n →
    ∃ c ∈ before, c.Obtains id n ∧ c.Commits

/-- Partitions of different numbers have different names. -/
theorem number_eq_of_name {m n : Int} {name : String} (first : name ∈ (partitionsOf m).map Partition.name)
    (second : name ∈ (partitionsOf n).map Partition.name) : m = n := by
  obtain ⟨p, mem, rfl⟩ := List.mem_map.mp first
  obtain ⟨q, there, same⟩ := List.mem_map.mp second
  cases Partition.name_injective same
  obtain ⟨t, -, rfl⟩ := List.mem_map.mp mem
  obtain ⟨u, -, other⟩ := List.mem_map.mp there
  exact (Partition.mk.inj other).2.symm

section Runs

variable {config : ServerConfig} {run before after : List Conversation} {d : Conversation} {id : Id}

/-- The tables that are dropped with a project are those that were created with it. -/
theorem HandsOutNumbers.dropped_of_created (divided : config.tenantPartitioning = true)
    (numbers : HandsOutNumbers run) (possible : ∀ c ∈ run, c.Possible config)
    (here : run = before ++ d :: after) (asked : d.request = .dropProject id) (commits : d.Commits) :
    ∃ c ∈ before, (∃ p : Project, p.id = id ∧ c.request = .createProject p) ∧ c.Commits ∧
      tablesDropped (requests d.exchanges) = tablesCreated (requests c.exchanges) := by
  have planned := (possible d (by simp [here])).drops divided asked
  obtain ⟨n, shown, whole⟩ := planned.whole (by simp [removal, asking]) commits
  obtain ⟨c, mem, obtains, ended⟩ := numbers.known before d after here id n ⟨asked, shown⟩
  have created := (possible c (by simp [here, mem])).created divided obtains ended
  obtain ⟨p, own, creates, -⟩ := obtains
  refine ⟨c, mem, ⟨p, own, creates⟩, ended, ?_⟩
  rw [created, whole, tablesDropped, names_plan]
  exact tablesDropped_removal id

/-- No table is dropped with a project that was created for another. -/
theorem HandsOutNumbers.not_created_for_other (divided : config.tenantPartitioning = true)
    (numbers : HandsOutNumbers run) (possible : ∀ c ∈ run, c.Possible config)
    (here : run = before ++ d :: after) (asked : d.request = .dropProject id) {k : Conversation}
    (mem : k ∈ run) {p : Project} (creates : k.request = .createProject p) (other : p.id ≠ id)
    {name : String} (dropped : name ∈ tablesDropped (requests d.exchanges)) :
    name ∉ tablesCreated (requests k.exchanges) := by
  intro created
  obtain ⟨n, finds, inside⟩ := (possible d (by simp [here])).dropped divided asked dropped
  obtain ⟨c, early, obtains, -⟩ := numbers.known before d after here id n finds
  obtain ⟨m, shown, within⟩ := ((possible k mem).creates divided creates).names created
  have whole := tablesCreated_creation (n := m) p
  rw [tablesCreated] at whole
  rw [whole] at within
  cases number_eq_of_name inside within
  -- The two creations are not the same, so they were not shown the same number.
  have ne : c ≠ k := by
    rintro rfl
    obtain ⟨q, own, same, -⟩ := obtains
    rw [creates] at same
    cases same
    exact other own
  have : Std.Symm fun c d : Conversation => ∀ i j n, c.Obtains i n → ¬ d.Obtains j n :=
    ⟨fun c d apart i j n first second => apart j i n second first⟩
  exact numbers.distinct.forall (by simp [here, early]) mem ne _ _ _ obtains ⟨p, rfl, creates, shown⟩

end Runs

/-- A store that keeps projects apart creates and drops the partitions of the number that the server
shows, whatever it answers, and no others. Names of partitions differ from each other and from the names
of the divided tables, and are short enough for a server. So whenever numbers are handed out once, exactly
the tables go with a project that came with it. -/
theorem partitions_follow_projects {σ : Type} (peer : Peer σ) (config : ServerConfig)
    (divided : config.tenantPartitioning = true) (l : Line) (state : σ) :
    (∀ p : Project, Follows peer l state ((store config).createProject p)
      (.insertProject p [.partitionNumber]) fun n =>
        [.script (Partition.create ⟨"records", n⟩ p.id),
          .script (Partition.create ⟨"records_resource_changes", n⟩ p.id)]) ∧
    (∀ id : Id, Follows peer l state ((store config).dropProject id) (.select (.partitionNumber id))
      fun n => [.script (Partition.drop ⟨"records", n⟩),
        .script (Partition.drop ⟨"records_resource_changes", n⟩),
        .prepare (.statement (.deleteProject id)), .execute (.statement (.deleteProject id))]) ∧
    Function.Injective Partition.name ∧
    (∀ t ∈ Table.partitioned, (∀ q : Partition, q.name ≠ t.name) ∧
      ∀ n : Int, Partition.Long n → (Partition.name ⟨t.name, n⟩).utf8ByteSize ≤ 63) ∧
    ∀ run : List Conversation, (∀ c ∈ run, c.Possible config) → HandsOutNumbers run →
      ∀ before d after id, run = before ++ d :: after → d.request = .dropProject id →
        (d.Commits → ∃ c ∈ before, (∃ p : Project, p.id = id ∧ c.request = .createProject p) ∧
          c.Commits ∧ tablesDropped (requests d.exchanges) = tablesCreated (requests c.exchanges)) ∧
        ∀ c ∈ run, ∀ p : Project, c.request = .createProject p → p.id ≠ id →
          ∀ name ∈ tablesDropped (requests d.exchanges), name ∉ tablesCreated (requests c.exchanges) := by
  refine ⟨?creates, ?drops, Partition.name_injective, ?names, ?runs⟩
  case creates =>
    intro p
    exact .of_courses (fun _ _ course => planned_createProject divided course) peer l state
  case drops =>
    intro id
    exact .of_courses (fun _ _ course => planned_dropProject divided course) peer l state
  case names =>
    intro t mem
    exact ⟨fun q => q.name_ne_table mem, fun n long => Partition.utf8ByteSize_name mem long⟩
  case runs =>
    intro run possible numbers before d after id here asked
    constructor
    · exact numbers.dropped_of_created divided possible here asked
    · intro c mem p creates other name dropped
      exact numbers.not_created_for_other divided possible here asked mem creates other dropped

/-- A project that gets the number 5 and is dropped afterwards. -/
theorem partitions_follow_projects_number_five :
    let config := { ServerConfig.default with tenantPartitioning := true }
    let script : Script := ⟨.welcome, .ok .empty, .ok .empty,
      [.answer (.ok ⟨[[(.partitionNumber, .integer .eight 5)]], 1⟩)]⟩
    let carried := Conversation.onLine (Peer.scripted true) config (Line.idle config) script
    let created := carried (.createProject { (default : Project) with id := .ofNat 1 })
    let dropped := carried (.dropProject (.ofNat 1))
    tablesDropped (requests dropped.exchanges) = ["records_ppn_5", "records_resource_changes_ppn_5"] ∧
    ∃ c ∈ [created], (∃ p : Project, p.id = .ofNat 1 ∧ c.request = .createProject p) ∧ c.Commits ∧
      tablesDropped (requests dropped.exchanges) = tablesCreated (requests c.exchanges) := by
  intro config script carried created dropped
  have possible : ∀ c ∈ [created, dropped], c.Possible config := by
    simp only [List.forall_mem_cons, List.not_mem_nil, false_implies, implies_true, and_true]
    exact ⟨Conversation.possible_onLine .., Conversation.possible_onLine ..⟩
  let five : Reply := ⟨[[(.partitionNumber, .integer .eight 5)]], 1⟩
  have shown : ⟨.execute (.statement (.insertProject { (default : Project) with id := .ofNat 1 }
      [.partitionNumber])), .ok five⟩ ∈ created.exchanges := by decide +kernel
  have found : ∀ e ∈ dropped.exchanges,
      e.request = .execute (.statement (.select (.partitionNumber (.ofNat 1)))) → e.answer = .ok five := by
    decide +kernel
  have numbers : HandsOutNumbers [created, dropped] := by
    constructor
    · rw [List.pairwise_pair]
      rintro i j n - ⟨p, -, impossible, -⟩
      contradiction
    · rintro before d after here id n ⟨asked, e, mem, request, reply, row, answer, rows, number⟩
      rcases before with _ | ⟨x, _ | ⟨y, rest⟩⟩
      · cases here
        contradiction
      · cases here
        cases asked
        cases answer.symm.trans (found e mem request)
        cases rows
        cases number
        exact ⟨created, by simp, ⟨_, rfl, rfl, _, shown, rfl, five, _, rfl, rfl, rfl⟩, by decide +kernel⟩
      · simp at here
  obtain ⟨-, -, -, -, runs⟩ := partitions_follow_projects (Peer.scripted true) config rfl
    (Line.idle config) script
  have followed := runs [created, dropped] possible numbers [created] dropped [] (.ofNat 1) rfl rfl
  exact ⟨by decide +kernel, followed.1 (by decide +kernel)⟩

end AuditTrail.Server
