import AuditTrail.Proofs.Query
import AuditTrail.Proofs.Server.Course
import AuditTrail.Server.Script
import AuditTrail.Server.Store

/-! The operations that work in one transaction. What a server has to answer for such an operation to
go on is told here statement by statement, apart from the operations themselves. An operation is careful
if it goes on exactly as long as it gets that, and a careful operation commits exactly if it always did. -/
namespace AuditTrail.Server

/-! What is expected of an answer -/

def Request.isWork : Request → Bool
  | .script _ | .prepare _ | .execute _ => true
  | _ => false

/-- Whether there is one row, and it is as it should be. -/
def single (fits : Row → Bool) : List Row → Bool
  | [row] => fits row
  | _ => false

/-- Whether a row has a version of the tables that this store knows. -/
def isKnownVersion (row : Row) : Bool :=
  match Reader.number .four row with
  | .ok n => n ≤ schemaVersion
  | .error _ => false

theorem isKnownVersion_iff {row : Row} :
    isKnownVersion row = true ↔ ∃ n, Reader.number .four row = .ok n ∧ n ≤ schemaVersion := by
  unfold isKnownVersion
  cases Reader.number .four row <;> simp

def hasNumber (row : Row) : Bool :=
  (Reader.number .eight row).isOk

theorem hasNumber_iff {row : Row} : hasNumber row = true ↔ ∃ n, Reader.number .eight row = .ok n := by
  unfold hasNumber
  cases Reader.number .eight row <;> simp [Except.isOk, Except.toBool]

section
variable (gate : Project → Bool)

/-- Whether a row is a project for which an operation is allowed. -/
def passes (row : Row) : Bool :=
  match Reader.project row with
  | .ok p => gate p
  | .error _ => false

/-- What the rows of a choice have to be. A project has to be there; of its row only that counts which
was asked for. A record has to be there, a page may be empty. -/
def rowsExpected (s : Selection) (rows : List Row) : Bool :=
  match s.table with
  | .projects =>
    single (fun row =>
      if s.columns = [] then true
      else if s.columns = [.partitionNumber] then hasNumber row
      else passes gate row) rows
  | .records =>
    if s.bound = .all then single (fun row => (Reader.record row).isOk) rows
    else rows.all fun row => (Reader.record row).isOk
  | .changes => rows.all fun row => (Reader.change row).isOk
  | .version => rows.isEmpty || single isKnownVersion rows

/-- What the answer to a statement has to be. -/
def expected (reply : Reply) : Statement → Bool
  | .select s => rowsExpected gate s reply.rows
  | .insert .projects _ _ => single hasNumber reply.rows
  | .update .records _ _ _ => reply.affected ≠ 0
  | _ => true

/-- Whether an operation may go on after an exchange. -/
def Exchange.Succeeds (e : Exchange) : Prop :=
  ∃ reply, e.answer = .ok reply ∧ match e.request with
    | .execute (.statement s) => expected gate reply s = true
    | _ => True

end

/-! Operations that go on only after such answers -/

namespace Dialogue

variable {α β : Type} {gate : Project → Bool} {wanted : α → Prop} {also : β → Prop}

/-- Whether a dialogue asks for nothing and has no result, or none that is wanted. -/
def Stops (wanted : α → Prop) : Dialogue α → Prop
  | done (.ok a) => ¬ wanted a
  | done (.error _) => True
  | note _ rest => rest.Stops wanted
  | ask _ _ => False

/-- Whether a dialogue goes on exactly as long as its exchanges succeed. -/
def Careful (gate : Project → Bool) (wanted : α → Prop) : Dialogue α → Prop
  | done (.ok a) => wanted a
  | done (.error _) => False
  | note _ rest => rest.Careful gate wanted
  | ask q next => q.isWork = true ∧ ∀ answer,
      (Exchange.Succeeds gate ⟨q, answer⟩ → (next answer).Careful gate wanted) ∧
      (¬ Exchange.Succeeds gate ⟨q, answer⟩ → (next answer).Stops wanted)

theorem Stops.andThen {d : Dialogue α} {f : α → Dialogue β} (stops : d.Stops wanted)
    (unwanted : ∀ a, ¬ wanted a → (f a).Stops also) : (d.andThen f).Stops also := by
  induction d with
  | done r =>
    cases r with
    | error e => exact trivial
    | ok a => exact unwanted a stops
  | note s rest ih => exact ih stops
  | ask q next ih => exact stops.elim

theorem Stops.bind {d : Dialogue α} {f : α → Dialogue β} (stops : d.Stops fun _ => True) :
    (d.andThen f).Stops also :=
  stops.andThen fun _ unwanted => absurd trivial unwanted

theorem Careful.andThen {d : Dialogue α} {f : α → Dialogue β} (careful : d.Careful gate wanted)
    (goes : ∀ a, wanted a → (f a).Careful gate also)
    (unwanted : ∀ a, ¬ wanted a → (f a).Stops also) : (d.andThen f).Careful gate also := by
  induction d with
  | done r =>
    cases r with
    | error e => exact careful.elim
    | ok a => exact goes a careful
  | note s rest ih => exact ih careful
  | ask q next ih =>
    refine ⟨careful.1, fun answer => ⟨fun good => ?_, fun bad => ?_⟩⟩
    · exact ih answer ((careful.2 answer).1 good)
    · exact ((careful.2 answer).2 bad).andThen unwanted

/-- Where everything is wanted, only what comes of success matters. -/
theorem Careful.bind {d : Dialogue α} {f : α → Dialogue β} (careful : d.Careful gate fun _ => True)
    (goes : ∀ a, (f a).Careful gate also) : (d.andThen f).Careful gate also :=
  careful.andThen (fun a _ => goes a) fun _ unwanted => (unwanted trivial).elim

theorem Stops.course {d : Dialogue α} (stops : d.Stops wanted) {es : List Exchange}
    {r : Except Error α} (course : d.Course es r) :
    es = [] ∧ ∀ a, r = .ok a → ¬ wanted a := by
  induction d with
  | done result =>
    obtain ⟨rfl, rfl⟩ := course
    refine ⟨rfl, ?_⟩
    rintro a rfl
    exact stops
  | note s rest ih => exact ih stops course
  | ask q next ih => exact stops.elim

/-- A careful dialogue has come to a result after exchanges that have all succeeded, or it has stopped
after the first that has not. -/
theorem Careful.course {d : Dialogue α} (careful : d.Careful gate fun _ => True) {es : List Exchange}
    {r : Except Error α} (course : d.Course es r) :
    (∃ a, r = .ok a ∧ ∀ x ∈ es, x.request.isWork = true ∧ x.Succeeds gate) ∨
      ∃ e before last, r = .error e ∧ es = before ++ [last] ∧
        (∀ x ∈ before, x.request.isWork = true ∧ x.Succeeds gate) ∧
        last.request.isWork = true ∧ ¬ last.Succeeds gate := by
  induction d generalizing es with
  | done result =>
    obtain ⟨rfl, rfl⟩ := course
    cases r with
    | error e => exact careful.elim
    | ok a => exact .inl ⟨a, rfl, by simp⟩
  | note s rest ih => exact ih careful course
  | ask q next ih =>
    obtain ⟨answer, others, rfl, course⟩ := course
    by_cases good : Exchange.Succeeds gate ⟨q, answer⟩
    · obtain ⟨a, rfl, each⟩ | ⟨e, before, last, rfl, rfl, each, failed⟩ :=
        ih answer ((careful.2 answer).1 good) course
      · exact .inl ⟨a, rfl, List.forall_mem_cons.mpr ⟨⟨careful.1, good⟩, each⟩⟩
      · exact .inr ⟨e, ⟨q, answer⟩ :: before, last, rfl, rfl,
          List.forall_mem_cons.mpr ⟨⟨careful.1, good⟩, each⟩, failed⟩
    · obtain ⟨rfl, unwanted⟩ := ((careful.2 answer).2 good).course course
      cases r with
      | ok a => exact absurd trivial (unwanted a rfl)
      | error e => exact .inr ⟨e, [], ⟨q, answer⟩, rfl, rfl, by simp, careful.1, good⟩

/-! What the pieces of operations are careful about -/

theorem careful_request {q : Server.Request} (work : q.isWork = true) {wanted : Reply → Prop}
    (fits : ∀ reply, Exchange.Succeeds gate ⟨q, .ok reply⟩ ↔ wanted reply) (report : Fault → Error) :
    (request report q).Careful gate wanted := by
  refine ⟨work, fun answer => ?_⟩
  cases answer with
  | error f => exact ⟨fun ⟨_, impossible, _⟩ => by contradiction, fun _ => trivial⟩
  | ok reply => exact ⟨(fits reply).mp, mt (fits reply).mpr⟩

theorem careful_script (report : Fault → Error) (text : String) :
    (script report text).Careful gate fun _ => True :=
  (careful_request rfl (fun reply => ⟨fun _ => trivial, fun _ => ⟨reply, rfl, trivial⟩⟩) report).bind
    fun _ => trivial

theorem careful_prepare (report : Fault → Error) (q : Query) :
    (request report (.prepare q)).Careful gate fun _ => True :=
  careful_request rfl (fun reply => ⟨fun _ => trivial, fun _ => ⟨reply, rfl, trivial⟩⟩) report

theorem careful_execute (report : Fault → Error) (s : Statement) :
    (request report (.execute (.statement s))).Careful gate fun reply => expected gate reply s = true :=
  careful_request rfl (fun reply => ⟨fun ⟨_, same, fits⟩ => by cases same; exact fits,
    fun fits => ⟨reply, rfl, fits⟩⟩) report

theorem careful_perform (report : Fault → Error) (s : Statement) :
    (Dialogue.perform report (.statement s)).Careful gate fun reply => expected gate reply s = true :=
  (careful_prepare report _).bind fun _ => careful_execute report s

variable {s : Statement} (rule : List Row → Bool)

/-- A statement that may give one row at most is expected to give what makes a rule true. -/
theorem careful_performOptional (same : ∀ reply, expected gate reply s = rule reply.rows)
    (few : ∀ a b rest, rule (a :: b :: rest) = false) (report : Fault → Error) :
    (Dialogue.performOptional report (.statement s)).Careful gate fun o => rule o.toList = true := by
  refine (careful_perform report s).andThen (fun reply good => ?_) (fun reply bad => ?_)
  · rw [same] at good
    rcases rows : reply.rows with _ | ⟨row, _ | ⟨other, rest⟩⟩
    · rwa [rows] at good
    · rwa [rows] at good
    · rw [rows, few] at good
      contradiction
  · rw [same] at bad
    rcases rows : reply.rows with _ | ⟨row, _ | ⟨other, rest⟩⟩
    · rwa [rows] at bad
    · rwa [rows] at bad
    · exact trivial

/-- Work on a row that is expected to be there, and to be as it should be. -/
theorem careful_found (fits : Row → Bool)
    (same : ∀ reply, expected gate reply s = single fits reply.rows) (report : Fault → Error)
    {f : Option Row → Dialogue α} (missing : (f none).Stops wanted)
    (good : ∀ row, fits row = true → (f (some row)).Careful gate wanted)
    (bad : ∀ row, ¬ fits row = true → (f (some row)).Stops wanted) :
    ((Dialogue.performOptional report (.statement s)).andThen f).Careful gate wanted := by
  refine (careful_performOptional (single fits) same (fun _ _ _ => rfl) report).andThen ?_ ?_
  · rintro (_ | row) fitting
    · contradiction
    · exact good row fitting
  · rintro (_ | row) unfit
    · exact missing
    · exact bad row unfit

theorem careful_performOne (fits : Row → Bool)
    (same : ∀ reply, expected gate reply s = single fits reply.rows) (report : Fault → Error) :
    (Dialogue.performOne report (.statement s)).Careful gate fun row => fits row = true :=
  careful_found fits same report trivial (fun _ fitting => fitting) fun _ unfit => unfit

section
variable {ε : Type} {result : Except ε α} {report : ε → Error}

theorem careful_demand {a : α} (same : result = .ok a) (good : wanted a) :
    (demand (result.mapError report)).Careful gate wanted := by
  rw [same]
  exact good

theorem stops_demand (bad : ∀ a, result = .ok a → ¬ wanted a) :
    (demand (result.mapError report)).Stops wanted := by
  cases result with
  | error why => exact trivial
  | ok a => exact bad a rfl

end

/-- Rows can be read together if they can be read one by one. -/
theorem isOk_mapM (reader : Reader α) (rows : List Row) :
    (rows.mapM reader).isOk = rows.all fun row => (reader row).isOk := by
  induction rows with
  | nil => rfl
  | cons row rest ih =>
    rw [List.mapM_cons, List.all_cons, ← ih]
    cases reader row with
    | error f => rfl
    | ok a => cases rest.mapM reader <;> rfl

theorem careful_mapM_read {reader : Reader α} {rows : List Row}
    (good : (rows.all fun row => (reader row).isOk) = true) :
    (rows.mapM (read reader)).Careful gate fun _ => True := by
  rw [← isOk_mapM] at good
  rw [mapM_read]
  cases reads : rows.mapM reader with
  | error f =>
    rw [reads] at good
    contradiction
  | ok found => exact trivial

theorem stops_mapM_read {reader : Reader α} {rows : List Row} {wanted : List α → Prop}
    (bad : ¬ (rows.all fun row => (reader row).isOk) = true) :
    (rows.mapM (read reader)).Stops wanted := by
  rw [← isOk_mapM] at bad
  rw [mapM_read]
  cases reads : rows.mapM reader with
  | error f => exact trivial
  | ok found =>
    rw [reads] at bad
    exact absurd rfl bad

end Dialogue

open Dialogue

section Pieces

variable {gate : Project → Bool} {α : Type}

theorem careful_requireProject (id : Id) : (requireProject id).Careful gate fun _ => True :=
  careful_found (fun _ => true) (fun _ => rfl) _ trivial (fun _ _ => trivial)
    fun _ unfit => absurd rfl unfit

theorem careful_readProject (id : Id) : (readProject id).Careful gate fun p => gate p = true := by
  refine careful_found (passes gate) (fun _ => rfl) _ trivial ?_ ?_
  · intro row fitting
    unfold passes at fitting
    split at fitting
    · next p reads => exact careful_demand reads fitting
    · contradiction
  · intro row unfit
    refine stops_demand fun p reads => ?_
    simpa only [passes, reads] using unfit

/-- Work for which a project has to allow something. -/
theorem careful_gated {id : Id} {e : Error} {work : Dialogue α}
    (careful : work.Careful gate fun _ => True) :
    ((readProject id).andThen fun p =>
      if !gate p then done (.error e) else work).Careful gate fun _ => True := by
  refine (careful_readProject id).andThen (fun p allowed => ?_) (fun p closed => ?_)
  · rw [allowed]
    exact careful
  · rw [eq_false_of_ne_true closed]
    exact trivial

theorem careful_readNumber {row : Row} (good : hasNumber row = true) :
    (readNumber row).Careful gate fun _ => True := by
  obtain ⟨n, number⟩ := hasNumber_iff.mp good
  exact careful_demand number trivial

theorem stops_readNumber {row : Row} (bad : ¬ hasNumber row = true) :
    (readNumber row).Stops fun _ => True :=
  stops_demand fun n number => absurd (hasNumber_iff.mpr ⟨n, number⟩) bad

theorem careful_readChanges (project : Id) (records : List Id) :
    (readChanges project records).Careful gate fun _ => True := by
  unfold readChanges
  split
  · exact trivial
  · exact (careful_perform _ _).andThen (fun reply good => careful_mapM_read good)
      fun reply bad => stops_mapM_read bad

theorem careful_readRecord (project id : Id) : (readRecord project id).Careful gate fun _ => True := by
  refine careful_found (fun row => (Reader.record row).isOk) (fun _ => rfl) _ trivial ?_ ?_
  · intro row fitting
    cases reads : Reader.record row with
    | error f =>
      rw [reads] at fitting
      contradiction
    | ok r =>
      have read : (read Reader.record row).Careful gate fun _ => True := careful_demand reads trivial
      exact read.bind fun r => (careful_readChanges project [id]).bind fun _ => trivial
  · intro row unfit
    have stops : (read Reader.record row).Stops fun _ => True := by
      refine stops_demand fun r reads => absurd ?_ unfit
      simp [reads, Except.isOk, Except.toBool]
    exact stops.bind

/-- Statements of which nothing is expected. -/
theorem careful_perform_any {s : Statement} (any : ∀ reply, expected gate reply s = true)
    (report : Fault → Error) {f : Reply → Dialogue α} {wanted : α → Prop}
    (goes : ∀ reply, (f reply).Careful gate wanted) :
    ((Dialogue.perform report (.statement s)).andThen f).Careful gate wanted :=
  (careful_perform report s).andThen (fun reply _ => goes reply) fun reply bad => absurd (any reply) bad

/-- A version is read if it is known, and one that is not may be read as well. -/
theorem careful_readVersion : readVersion.Careful gate fun version => version ≤ schemaVersion := by
  refine (careful_script _ _).bind fun _ => ?_
  refine (careful_performOptional (fun rows => rows.isEmpty || single isKnownVersion rows)
    (fun _ => rfl) (fun _ _ _ => rfl) _).andThen (fun o good => ?_) (fun o bad => ?_)
  · cases o with
    | none => exact (by decide : (0 : Int) ≤ schemaVersion)
    | some row =>
      obtain ⟨n, number, known⟩ := isKnownVersion_iff.mp good
      exact careful_demand number known
  · cases o with
    | none => exact absurd rfl bad
    | some row =>
      exact stops_demand fun n number known => bad (isKnownVersion_iff.mpr ⟨n, number, known⟩)

theorem careful_executeEach {β : Type} (doing : String) {s : Nat → β → Statement}
    (any : ∀ n b reply, expected gate reply (s n b) = true) (n : Nat) (items : List β) :
    (executeEach doing s n items).Careful gate fun _ => True := by
  induction items generalizing n with
  | nil => exact trivial
  | cons b rest ih =>
    exact (careful_execute _ _).andThen (fun _ _ => ih (n + 1)) fun reply bad => absurd (any n b reply) bad

theorem careful_insertEach {β : Type} (doing : String) {s : Nat → β → Statement}
    (any : ∀ n b reply, expected gate reply (s n b) = true) (items : List β) :
    (insertEach doing s items).Careful gate fun _ => True := by
  cases items with
  | nil => exact trivial
  | cons b rest =>
    exact (careful_prepare _ _).bind fun _ => careful_executeEach doing any 0 (b :: rest)

theorem careful_insertChanges (project record : Id) (changes : List Change) :
    (insertChanges project record changes).Careful gate fun _ => True :=
  careful_insertEach _ (fun _ _ _ => rfl) changes

theorem careful_deleteChanges (project record : Id) :
    (deleteChanges project record).Careful gate fun _ => True :=
  careful_perform_any (fun _ => rfl) _ fun _ => trivial

theorem careful_insertAllChanges (project : Id) (records : List Record) :
    (insertAllChanges project records).Careful gate fun _ => True := by
  induction records with
  | nil => exact trivial
  | cons r rest ih => exact (careful_insertChanges project r.id r.resource.changes).bind fun _ => ih

theorem careful_scriptEach (doing : String) (text : Partition → String) (ps : List Partition) :
    (scriptEach doing text ps).Careful gate fun _ => True := by
  induction ps with
  | nil => exact trivial
  | cons p rest ih => exact (careful_script _ _).bind fun _ => ih

theorem careful_deleteEach {ss : List Statement}
    (any : ∀ s ∈ ss, ∀ reply, expected gate reply s = true) :
    (deleteEach ss).Careful gate fun _ => True := by
  induction ss with
  | nil => exact trivial
  | cons s rest ih =>
    obtain ⟨first, others⟩ := List.forall_mem_cons.mp any
    exact careful_perform_any first _ fun _ => ih others

end Pieces

/-! Whole operations -/

/-- The exchanges of an operation that works in one transaction, and its result. Nothing is asked
without a connection, and all work is done between a beginning and an end. Work that has succeeded
throughout is committed, and makes a result if that succeeds as well; work is rolled back after the first
exchange in it that has not succeeded. -/
inductive Transacted {α : Type} (gate : Project → Bool) (beginning committing : Fault → Error) :
    List Exchange → Except Error α → Prop
  | unconnected (f : Fault) :
    Transacted gate beginning committing [⟨.connection, .error f⟩] (.error f.connection)
  | unbegun (c : Reply) (f : Fault) (answer : Except Fault Reply) :
    Transacted gate beginning committing
      [⟨.connection, .ok c⟩, ⟨.begin, .error f⟩, ⟨.rollback, answer⟩] (.error (beginning f))
  | abandoned (c b : Reply) {work : List Exchange} {last : Exchange} (answer : Except Fault Reply)
    (e : Error) (done : ∀ x ∈ work, x.request.isWork = true ∧ x.Succeeds gate)
    (failed : last.request.isWork = true ∧ ¬ last.Succeeds gate) :
    Transacted gate beginning committing
      (⟨.connection, .ok c⟩ :: ⟨.begin, .ok b⟩ :: (work ++ [last, ⟨.rollback, answer⟩])) (.error e)
  | uncommitted (c b : Reply) {work : List Exchange} (f : Fault)
    (done : ∀ x ∈ work, x.request.isWork = true ∧ x.Succeeds gate) :
    Transacted gate beginning committing
      (⟨.connection, .ok c⟩ :: ⟨.begin, .ok b⟩ :: (work ++ [⟨.commit, .error f⟩]))
      (.error (committing f))
  | committed (c b reply : Reply) {work : List Exchange} (a : α)
    (done : ∀ x ∈ work, x.request.isWork = true ∧ x.Succeeds gate) :
    Transacted gate beginning committing
      (⟨.connection, .ok c⟩ :: ⟨.begin, .ok b⟩ :: (work ++ [⟨.commit, .ok reply⟩])) (.ok a)

namespace Transacted

variable {α β : Type} {gate : Project → Bool} {beginning committing : Fault → Error}
  {es : List Exchange} {result : Except Error α}

theorem map (f : α → β) (h : Transacted gate beginning committing es result) :
    Transacted gate beginning committing es (result.map f) := by
  cases h with
  | unconnected f => exact .unconnected f
  | unbegun c f answer => exact .unbegun c f answer
  | abandoned c b answer e done failed => exact .abandoned c b answer e done failed
  | uncommitted c b f done => exact .uncommitted c b f done
  | committed c b reply a done => exact .committed c b reply (f a) done

theorem not_commit {x : Exchange} (work : x.request.isWork = true) : x.request ≠ .commit := by
  intro same
  rw [same] at work
  contradiction

theorem succeeds_start {q : Server.Request} (start : q = .connection ∨ q = .begin) (reply : Reply) :
    Exchange.Succeeds gate ⟨q, .ok reply⟩ := by
  rcases start with rfl | rfl <;> exact ⟨reply, rfl, trivial⟩

theorem not_succeeds_fault (q : Server.Request) (f : Fault) :
    ¬ Exchange.Succeeds gate ⟨q, .error f⟩ := by
  rintro ⟨_, impossible, _⟩
  contradiction

theorem succeeds_before_commit {work : List Exchange} {answer : Except Fault Reply} (c b : Reply)
    (done : ∀ x ∈ work, x.request.isWork = true ∧ x.Succeeds gate) :
    ∀ x ∈ ⟨.connection, .ok c⟩ :: ⟨.begin, .ok b⟩ :: (work ++ [⟨.commit, answer⟩]),
      x.request ≠ .commit → x.Succeeds gate := by
  intro x mem other
  simp only [List.mem_cons, List.mem_append, List.not_mem_nil, or_false] at mem
  rcases mem with rfl | rfl | mem | rfl
  · exact succeeds_start (.inl rfl) c
  · exact succeeds_start (.inr rfl) b
  · exact (done x mem).2
  · exact absurd rfl other

theorem no_commit_in_abandoned {work : List Exchange} {last : Exchange}
    {answer : Except Fault Reply} (c b : Reply)
    (done : ∀ x ∈ work, x.request.isWork = true ∧ x.Succeeds gate)
    (failed : last.request.isWork = true) (committing : Except Fault Reply) :
    ⟨.commit, committing⟩ ∉ (⟨.connection, .ok c⟩ :: ⟨.begin, .ok b⟩ ::
      (work ++ [last, ⟨.rollback, answer⟩]) : List Exchange) := by
  intro mem
  simp only [List.mem_cons, List.mem_append, List.not_mem_nil, or_false, Exchange.mk.injEq,
    reduceCtorEq, false_and, false_or] at mem
  rcases mem with mem | rfl
  · exact not_commit (done _ mem).1 rfl
  · exact not_commit failed rfl

/-- A commit is asked for exactly if everything before has succeeded. -/
theorem commit_mem_iff (h : Transacted gate beginning committing es result) :
    (∃ answer, ⟨.commit, answer⟩ ∈ es) ↔
      ∀ x ∈ es, x.request ≠ .commit → x.Succeeds gate := by
  cases h with
  | unconnected f =>
    refine iff_of_false (by simp) fun all => ?_
    exact not_succeeds_fault _ f (all _ List.mem_cons_self (by simp))
  | unbegun c f answer =>
    refine iff_of_false (by simp) fun all => ?_
    exact not_succeeds_fault .begin f (all _ (by simp) (by simp))
  | abandoned c b answer e done failed =>
    refine iff_of_false ?_ fun all => ?_
    · rintro ⟨committing, mem⟩
      exact no_commit_in_abandoned c b done failed.1 committing mem
    · exact failed.2 (all _ (by simp) (not_commit failed.1))
  | uncommitted c b f done => exact iff_of_true ⟨.error f, by simp⟩ (succeeds_before_commit c b done)
  | committed c b reply a done =>
    exact iff_of_true ⟨.ok reply, by simp⟩ (succeeds_before_commit c b done)

/-- There is a result exactly if a commit was asked for and has succeeded. -/
theorem ok_iff (h : Transacted gate beginning committing es result) :
    (∃ a, result = .ok a) ↔ ∃ reply, ⟨.commit, .ok reply⟩ ∈ es := by
  have none {e : Error} : ¬ ∃ a, (.error e : Except Error α) = .ok a := by simp
  cases h with
  | unconnected f => exact iff_of_false none (by simp)
  | unbegun c f answer => exact iff_of_false none (by simp)
  | abandoned c b answer e done failed =>
    refine iff_of_false none ?_
    rintro ⟨reply, mem⟩
    exact no_commit_in_abandoned c b done failed.1 (.ok reply) mem
  | uncommitted c b f done =>
    refine iff_of_false none ?_
    rintro ⟨reply, mem⟩
    simp only [List.mem_cons, List.mem_append, List.not_mem_nil, or_false, Exchange.mk.injEq,
      reduceCtorEq, false_and, and_false, false_or] at mem
    exact not_commit (done _ mem).1 rfl
  | committed c b reply a done => exact iff_of_true ⟨a, rfl⟩ ⟨reply, by simp⟩

end Transacted

section

variable {α β : Type} {gate : Project → Bool} {beginning committing : Fault → Error}

theorem transacted_of_careful {work : Dialogue α} (careful : work.Careful gate fun _ => True)
    {es : List Exchange} {result : Except Error α}
    (course : (connect.andThen fun _ =>
      Dialogue.transaction beginning committing work).Course es result) :
    Transacted gate beginning committing es result := by
  obtain ⟨f | c, others, rfl, course⟩ := course
  · obtain ⟨rfl, rfl⟩ := course
    exact .unconnected f
  · obtain ⟨f, answer, rfl, rfl⟩ | ⟨b, done, last, outcome, rfl, course, closed⟩ :=
      course_transaction course
    · exact .unbegun c f answer
    · -- The outcome of the work decides how it is closed.
      obtain ⟨a, rfl, good⟩ | ⟨e, before, last, rfl, rfl, good, failed⟩ := careful.course course
      · obtain ⟨a, reply, -, rfl, rfl⟩ | ⟨a, f, -, rfl, rfl⟩ | ⟨e, answer, impossible, -, -⟩ :=
          course_close closed
        · exact .committed c b reply a good
        · exact .uncommitted c b f good
        · contradiction
      · obtain ⟨a, reply, impossible, -, -⟩ | ⟨a, f, impossible, -, -⟩ | ⟨e, answer, -, rfl, rfl⟩ :=
          course_close closed
        · contradiction
        · contradiction
        · rw [List.append_assoc]
          exact .abandoned c b answer e good failed

theorem transacted_map_of_careful {work : Dialogue α} (careful : work.Careful gate fun _ => True)
    {f : α → β} {es : List Exchange} {result : Except Error β}
    (course : ((connect.andThen fun _ => Dialogue.transaction beginning committing work).andThen
      fun a => done (.ok (f a))).Course es result) :
    Transacted gate beginning committing es result := by
  obtain ⟨outcome, inner, rfl⟩ := course_map course
  exact (transacted_of_careful careful inner).map f

end

/-- How a commit that fails is worded in an operation that works in one transaction. -/
def commitFailure? : AuditTrail.Request → Option String
  | .createProject _ => some "Failed to commit project"
  | .dropProject _ => some "Failed to commit project drop"
  | .createRecords _ => some "Failed to commit records"
  | .getRecord _ _ | .listRecords _ _ _ _ => some "Failed to commit read"
  | .updateRecord _ _ _ => some "Failed to commit record update"
  | .deleteRecord _ _ => some "Failed to commit record delete"
  | .getProject _ | .listProjects _ _ | .updateProject _ _ => none

/-- Why a request is rejected by itself, whatever a server holds. -/
def rejection? : AuditTrail.Request → Option Error
  | .updateRecord _ _ u => if u.isEmpty then some .nothingToUpdate else none
  | .createRecords [] => some .emptyBatch
  | .createRecords (first :: rest) =>
    if rest.all (·.project = first.project) then none else some .mixedBatch
  | .listRecords _ _ _ cursor =>
    if cursor.isComplete then none else some (.invalidCursor cursor.encode)
  | _ => none

/-- What a project has to allow for a request. -/
def gateOf : AuditTrail.Request → Project → Bool
  | .updateRecord _ _ _ => Project.allowsUpdate
  | .deleteRecord _ _ => Project.allowsDelete
  | _ => fun _ => true

/-- A request that is rejected asks nothing of a server. -/
theorem handle_rejected {config : ServerConfig} {r : AuditTrail.Request} {e : Error}
    (rejected : rejection? r = some e) : (store config).handle r = .done (.error e) := by
  unfold rejection? at rejected
  split at rejected
  · next project id u =>
    split at rejected
    · next empty =>
      cases rejected
      simp [AuditStore.handle, store, updateRecord, empty, andThen]
    · contradiction
  · cases rejected
    rfl
  · next first rest =>
    split at rejected
    · contradiction
    · next mixed =>
      cases rejected
      have other : (first :: rest).any (·.project ≠ first.project) = true := by simpa using mixed
      have refused : createRecords (first :: rest) = .done (.error .mixedBatch) := by
        simp only [createRecords]
        rw [if_pos other]
        rfl
      simp [AuditStore.handle, store, refused, andThen]
  · next project filter limit cursor =>
    split at rejected
    · contradiction
    · next half =>
      cases rejected
      have key := RecordCursor.keyset_of_half (Bool.not_eq_true _ ▸ half)
      simp [AuditStore.handle, store, listRecords, demand, key, andThen]
  · contradiction

/-- Whether a request is carried out in one transaction, with a text for a commit that fails. -/
def Transacts (config : ServerConfig) (r : AuditTrail.Request) (text : String) : Prop :=
  ∀ es result, ((store config).handle r).Course es result →
    Transacted (gateOf r) (Fault.internal "Failed to begin transaction") (Fault.rolledBack text) es result

section

variable {config : ServerConfig} {project id : Id}

theorem transacts_createProject (p : Project) :
    Transacts config (.createProject p) "Failed to commit project" := by
  intro es result course
  refine transacted_map_of_careful ?_ course
  refine (careful_performOne hasNumber (fun _ => rfl) _).andThen
    (fun row good => ?_) (fun row bad => ?_)
  · refine (careful_readNumber good).bind fun number => ?_
    split
    · exact careful_scriptEach _ _ _
    · exact trivial
  · exact (stops_readNumber bad).bind

theorem transacts_dropProject :
    Transacts config (.dropProject id) "Failed to commit project drop" := by
  intro es result course
  refine transacted_map_of_careful ?_ course
  refine careful_found hasNumber (fun _ => rfl) _ trivial ?_ ?_
  · intro row good
    refine (careful_readNumber good).bind fun number => ?_
    have projects : (deleteEach [.deleteProject id]).Careful (gateOf (.dropProject id))
        fun _ => True := careful_deleteEach (by simp [Statement.deleteProject, expected])
    dsimp only
    split
    · exact (careful_scriptEach _ _ _).bind fun _ => projects
    · refine Careful.bind (careful_deleteEach ?_) fun _ => projects
      simp [Statement.deleteProjectChanges, Statement.deleteRecords, expected]
  · intro row bad
    exact (stops_readNumber bad).bind

theorem transacts_createRecords {first : Record} {rest : List Record}
    (together : rejection? (.createRecords (first :: rest)) = none) :
    Transacts config (.createRecords (first :: rest)) "Failed to commit records" := by
  intro es result course
  have same : ¬ (first :: rest).any (·.project ≠ first.project) = true := by
    simpa [rejection?] using together
  simp only [AuditStore.handle, store, createRecords] at course
  rw [if_neg same] at course
  refine transacted_map_of_careful ?_ course
  refine (careful_requireProject first.project).bind fun _ => ?_
  exact (careful_insertEach _ (fun _ _ _ => rfl) _).bind fun _ => careful_insertAllChanges _ _

theorem transacts_getRecord : Transacts config (.getRecord project id) "Failed to commit read" := by
  intro es result course
  refine transacted_map_of_careful ?_ course
  exact (careful_requireProject project).bind fun _ => careful_readRecord project id

theorem transacts_listRecords (f : RecordFilter) (limit : Nat) {cursor : RecordCursor}
    (complete : cursor.isComplete = true) :
    Transacts config (.listRecords project f limit cursor) "Failed to commit read" := by
  intro es result course
  obtain ⟨key, found⟩ := RecordCursor.keyset_of_complete complete
  simp only [AuditStore.handle, store, listRecords, demand, found] at course
  refine transacted_map_of_careful ?_ course
  refine (careful_requireProject project).bind fun _ => ?_
  refine (careful_perform _ _).andThen (fun reply good => ?_) (fun reply bad => ?_)
  · exact (careful_mapM_read good).bind fun records =>
      (careful_readChanges project _).bind fun _ => trivial
  · exact (stops_mapM_read bad).bind

theorem transacts_updateRecord {u : RecordUpdate} (some : u.isEmpty = false) :
    Transacts config (.updateRecord project id u) "Failed to commit record update" := by
  intro es result course
  simp only [AuditStore.handle, store, updateRecord] at course
  rw [if_neg (Bool.eq_false_iff.mp some)] at course
  refine transacted_map_of_careful ?_ course
  refine careful_gated ?_
  refine (careful_perform _ _).andThen (fun reply written => ?_) (fun reply missed => ?_)
  · rw [if_neg (of_decide_eq_true written)]
    cases u.resource with
    | none => exact careful_readRecord project id
    | some resource =>
      exact (careful_deleteChanges project id).bind fun _ =>
        (careful_insertChanges project id resource.changes).bind fun _ =>
          careful_readRecord project id
  · have untouched : reply.affected = 0 := by simpa [expected, Statement.updateRecord] using missed
    rw [if_pos untouched]
    exact trivial

theorem transacts_deleteRecord :
    Transacts config (.deleteRecord project id) "Failed to commit record delete" := by
  intro es result course
  refine transacted_map_of_careful ?_ course
  refine careful_gated ?_
  exact (careful_deleteChanges project id).bind fun _ =>
    careful_perform_any (fun _ => rfl) _ fun _ => trivial

/-- A request that works in a transaction does so if it is not rejected. -/
theorem transacts_of_accepted {r : AuditTrail.Request} {text : String}
    (works : commitFailure? r = some text) (accepted : rejection? r = none) :
    Transacts config r text := by
  cases r with
  | createProject p =>
    cases works
    exact transacts_createProject p
  | dropProject id =>
    cases works
    exact transacts_dropProject
  | createRecords records =>
    cases works
    cases records with
    | nil => contradiction
    | cons first rest => exact transacts_createRecords accepted
  | getRecord project id =>
    cases works
    exact transacts_getRecord
  | listRecords project f limit cursor =>
    cases works
    exact transacts_listRecords f limit (by simpa [rejection?] using accepted)
  | updateRecord project id u =>
    cases works
    exact transacts_updateRecord (by simpa [rejection?] using accepted)
  | deleteRecord project id =>
    cases works
    exact transacts_deleteRecord
  | getProject | listProjects | updateProject => contradiction

end

theorem transacted_ensureTables {config : ServerConfig} {es : List Exchange}
    {result : Except Error Unit} (course : (ensureTables config).Course es result) :
    Transacted (fun _ => true) (Fault.migration "Failed to begin schema transaction")
      (Fault.migration "Failed to commit schema") es result := by
  refine transacted_of_careful ?_ course
  refine (careful_script _ _).bind fun _ => ?_
  refine careful_readVersion.andThen (fun version known => ?_) (fun version newer => ?_)
  · split
    · refine Careful.bind ?_ fun _ => ?_
      · exact (careful_script _ _).bind fun _ => (careful_script _ _).bind fun _ =>
          (careful_script _ _).bind fun _ => careful_script _ _
      · exact careful_perform_any (fun _ => rfl) _ fun _ =>
          careful_perform_any (fun _ => rfl) _ fun _ => trivial
    · rw [if_neg (Int.not_lt.mpr known)]
      exact trivial
  · have unknown : schemaVersion < version := Int.not_le.mp newer
    have set : version ≠ 0 := by
      rintro rfl
      contradiction
    rw [if_neg set, if_pos unknown]
    exact trivial

/-- An operation that works in one transaction, as it is carried out on a line. -/
structure Conducted {σ α : Type} (peer : Peer σ) (gate : Project → Bool)
    (beginning committing : Fault → Error) (d : Dialogue α) (l : Line) (s : σ) : Prop where
  /-- What is asked and answered, and what comes of it. -/
  course : Transacted gate beginning committing (l.exchanges peer d s) (l.run peer d s).1
  /-- A commit is asked for exactly if everything before has succeeded. -/
  commits : (∃ answer, ⟨.commit, answer⟩ ∈ l.exchanges peer d s) ↔
    ∀ x ∈ l.exchanges peer d s, x.request ≠ .commit → x.Succeeds gate
  /-- There is a result exactly if a commit has succeeded. -/
  results : (∃ a, (l.run peer d s).1 = .ok a) ↔
    ∃ reply, ⟨.commit, .ok reply⟩ ∈ l.exchanges peer d s
  /-- What is asked is sent, as long as there is a connection, and nothing else is. -/
  sends : ∃ new, (l.run peer d s).2.1.sent = l.sent ++ new ∧
    new.filter (!·.opens) = spoken l.connected (l.exchanges peer d s)

theorem Conducted.of_courses {σ α : Type} {gate : Project → Bool} {beginning committing : Fault → Error}
    {d : Dialogue α} (transacted : ∀ es result, d.Course es result →
      Transacted gate beginning committing es result) (peer : Peer σ) (l : Line) (s : σ) :
    Conducted peer gate beginning committing d l s := by
  have course := transacted _ _ (Line.course_exchanges peer d l s)
  exact ⟨course, course.commit_mem_iff, course.ok_iff, Line.run_sent peer d l s⟩

/-- Whatever a server answers, an operation that works in one transaction is rejected before it asks
anything, or it commits exactly after success in everything and has a result exactly if that succeeds.
So it is with the creation of the tables. -/
theorem transactions_are_all_or_nothing {σ : Type} (peer : Peer σ) (config : ServerConfig) (l : Line)
    (s : σ) :
    (∀ r text, commitFailure? r = some text →
      match rejection? r with
      | some e => l.run peer ((store config).handle r) s = (.error e, l, s)
      | none => Conducted peer (gateOf r) (Fault.internal "Failed to begin transaction")
          (Fault.rolledBack text) ((store config).handle r) l s) ∧
    Conducted peer (fun _ => true) (Fault.migration "Failed to begin schema transaction")
      (Fault.migration "Failed to commit schema") (ensureTables config) l s := by
  constructor
  · intro r text works
    split
    · next e rejected =>
      rw [handle_rejected rejected]
      rfl
    · next accepted =>
      exact .of_courses (transacts_of_accepted works accepted) peer l s
  · exact .of_courses (fun _ _ course => transacted_ensureTables course) peer l s

/-- Deleting from a project that the server does not have is rolled back. -/
theorem transactions_are_all_or_nothing_missing_project :
    Conducted (Peer.scripted true) Project.allowsDelete (Fault.internal "Failed to begin transaction")
      (Fault.rolledBack "Failed to commit record delete")
      ((store .default).handle (.deleteRecord (.ofNat 1) (.ofNat 2))) (Line.idle .default)
      ⟨.welcome, .ok .empty, .ok .empty, []⟩ ∧
    ((Line.idle .default).run (Peer.scripted true)
      ((store .default).handle (.deleteRecord (.ofNat 1) (.ofNat 2)))
      ⟨.welcome, .ok .empty, .ok .empty, []⟩).2.1.sent = [Line.startup .default, .begin,
        .query (.statement (.select (.project (.ofNat 1)))), .rollback] :=
  ⟨(transactions_are_all_or_nothing (Peer.scripted true) .default (Line.idle .default)
    ⟨.welcome, .ok .empty, .ok .empty, []⟩).1 (.deleteRecord (.ofNat 1) (.ofNat 2)) _ rfl, rfl⟩

end AuditTrail.Server
