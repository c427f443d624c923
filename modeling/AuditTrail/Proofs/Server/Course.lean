import AuditTrail.Server.Line
import Mathlib.Data.List.Basic

/-! What dialogues can come to. A course is a list of exchanges together with a result that a dialogue
has if it is answered as in the exchanges, so whatever holds of all courses holds for every server. A
line to a server carries out one of the courses, and of that one the exchanges before the connection
is lost are what goes over it. -/
namespace AuditTrail.Server

/-- A request and the answer to it. -/
structure Exchange where
  request : Request
  answer : Except Fault Reply
deriving DecidableEq

namespace Dialogue

variable {α β : Type}

/-- Whether a dialogue has a result when it is answered as in some exchanges. -/
def Course : Dialogue α → List Exchange → Except Error α → Prop
  | done r, es, result => es = [] ∧ result = r
  | note _ rest, es, result => rest.Course es result
  | ask q next, es, result =>
    ∃ answer others, es = ⟨q, answer⟩ :: others ∧ (next answer).Course others result

instance : LawfulMonad Dialogue :=
  .mk' Dialogue andThen_done (fun _ _ => rfl) andThen_assoc

/-- Reading rows asks nobody anything. -/
theorem mapM_read (reader : Reader α) (rows : List Row) : rows.mapM (read reader) =
    demand ((rows.mapM reader).mapError fun f => .internal StoreKind.server.name f.message) := by
  induction rows with
  | nil => rfl
  | cons row rest ih =>
    rw [List.mapM_cons, List.mapM_cons, ih]
    unfold read
    cases reader row with
    | error f => rfl
    | ok a => cases rest.mapM reader <;> rfl

section Composition

variable {es : List Exchange}

/-- A course of two dialogues, one after the other, ends in the first or goes through both. -/
theorem course_andThen {d : Dialogue α} {f : α → Dialogue β} {r : Except Error β} :
    (d.andThen f).Course es r ↔ (∃ e, d.Course es (.error e) ∧ r = .error e) ∨
      ∃ first others a, es = first ++ others ∧ d.Course first (.ok a) ∧ (f a).Course others r := by
  induction d generalizing es with
  | done result =>
    cases result with
    | error e => simp [andThen, Course, and_assoc]
    | ok a =>
      constructor
      · intro course
        exact .inr ⟨[], es, a, rfl, ⟨rfl, rfl⟩, course⟩
      · rintro (⟨e, ⟨-, same⟩, -⟩ | ⟨_, rest, _, rfl, ⟨rfl, ⟨⟩⟩, course⟩)
        · cases same
        · exact course
  | note s rest ih => exact ih
  | ask q next ih =>
    constructor
    · rintro ⟨answer, others, rfl, course⟩
      obtain ⟨e, failed, rfl⟩ | ⟨first, rest, a, rfl, came, course⟩ := (ih answer).mp course
      · exact .inl ⟨e, ⟨answer, others, rfl, failed⟩, rfl⟩
      · exact .inr ⟨⟨q, answer⟩ :: first, rest, a, rfl, ⟨answer, first, rfl, came⟩, course⟩
    · rintro (⟨e, ⟨answer, others, rfl, failed⟩, rfl⟩ |
        ⟨_, rest, a, rfl, ⟨answer, first, rfl, came⟩, course⟩)
      · exact ⟨answer, others, rfl, (ih answer).mpr (.inl ⟨e, failed, rfl⟩)⟩
      · exact ⟨answer, first ++ rest, rfl, (ih answer).mpr (.inr ⟨first, rest, a, rfl, came, course⟩)⟩

theorem course_map {d : Dialogue α} {f : α → β} {r : Except Error β}
    (course : (d.andThen fun a => done (.ok (f a))).Course es r) :
    ∃ result, d.Course es result ∧ r = result.map f := by
  obtain ⟨e, failed, rfl⟩ | ⟨first, others, a, rfl, came, rfl, rfl⟩ := course_andThen.mp course
  · exact ⟨_, failed, rfl⟩
  · exact ⟨_, by rwa [List.append_nil], rfl⟩

theorem course_map_of {d : Dialogue α} {r : Except Error α} (f : α → β) (course : d.Course es r) :
    (d.andThen fun a => done (.ok (f a))).Course es (r.map f) := by
  cases r with
  | error e => exact course_andThen.mpr (.inl ⟨e, course, rfl⟩)
  | ok a => exact course_andThen.mpr (.inr ⟨es, [], a, (List.append_nil es).symm, course, rfl, rfl⟩)

theorem course_request {report : Fault → Error} {q : Request} {r : Except Error Reply} :
    (request report q).Course es r ↔
      ∃ answer, es = [⟨q, answer⟩] ∧ r = answer.mapError report := by
  constructor
  · rintro ⟨_ | reply, others, rfl, rfl, rfl⟩
    · exact ⟨_, rfl, rfl⟩
    · exact ⟨_, rfl, rfl⟩
  · rintro ⟨_ | reply, rfl, rfl⟩
    · exact ⟨_, [], rfl, rfl, rfl⟩
    · exact ⟨_, [], rfl, rfl, rfl⟩

theorem course_giveUp {e : Error} {r : Except Error α} :
    (giveUp e).Course es r ↔ ∃ answer, es = [⟨.rollback, answer⟩] ∧ r = .error e := by
  constructor
  · rintro ⟨answer, others, rfl, rfl, rfl⟩
    exact ⟨answer, rfl, rfl⟩
  · rintro ⟨answer, rfl, rfl⟩
    exact ⟨answer, [], rfl, rfl, rfl⟩

variable {beginning committing : Fault → Error}

/-- Work that is closed goes its course and then commits or gives up. -/
theorem course_closing {d : Dialogue α} {r : Except Error α} :
    (d.closing committing).Course es r ↔ ∃ work last result,
      es = work ++ last ∧ d.Course work result ∧ (close committing result).Course last r := by
  induction d generalizing es with
  | done result =>
    constructor
    · intro course
      exact ⟨[], es, result, rfl, ⟨rfl, rfl⟩, course⟩
    · rintro ⟨_, last, _, rfl, ⟨rfl, rfl⟩, closed⟩
      exact closed
  | note s rest ih => exact ih
  | ask q next ih =>
    constructor
    · rintro ⟨answer, others, rfl, course⟩
      obtain ⟨work, last, result, rfl, course, closed⟩ := (ih answer).mp course
      exact ⟨⟨q, answer⟩ :: work, last, result, rfl, ⟨answer, work, rfl, course⟩, closed⟩
    · rintro ⟨_, last, result, rfl, ⟨answer, work, rfl, course⟩, closed⟩
      exact ⟨answer, work ++ last, rfl, (ih answer).mpr ⟨work, last, result, rfl, course, closed⟩⟩

theorem course_close {result r : Except Error α} (course : (close committing result).Course es r) :
    (∃ a reply, result = .ok a ∧ es = [⟨.commit, .ok reply⟩] ∧ r = .ok a) ∨
      (∃ a f, result = .ok a ∧ es = [⟨.commit, .error f⟩] ∧ r = .error (committing f)) ∨
      ∃ e answer, result = .error e ∧ es = [⟨.rollback, answer⟩] ∧ r = .error e := by
  cases result with
  | error e =>
    obtain ⟨answer, rfl, rfl⟩ := course_giveUp.mp course
    exact .inr (.inr ⟨e, answer, rfl, rfl, rfl⟩)
  | ok a =>
    simp only [close, bind_eq, pure_eq] at course
    obtain ⟨e, failed, rfl⟩ | ⟨first, others, reply, rfl, came, rfl, rfl⟩ := course_andThen.mp course
    · obtain ⟨_ | _, rfl, same⟩ := course_request.mp failed <;> cases same
      exact .inr (.inl ⟨a, _, rfl, rfl, rfl⟩)
    · obtain ⟨_ | _, rfl, same⟩ := course_request.mp came <;> cases same
      exact .inl ⟨a, _, rfl, rfl, rfl⟩

/-- A transaction is not begun, or its work is done and closed. -/
theorem course_transaction {work : Dialogue α} {r : Except Error α}
    (course : (transaction beginning committing work).Course es r) :
    (∃ f answer, es = [⟨.begin, .error f⟩, ⟨.rollback, answer⟩] ∧ r = .error (beginning f)) ∨
      ∃ reply done last result, es = ⟨.begin, .ok reply⟩ :: (done ++ last) ∧
        work.Course done result ∧ (close committing result).Course last r := by
  obtain ⟨f | reply, others, rfl, course⟩ := course
  · obtain ⟨answer, rfl, rfl⟩ := course_giveUp.mp course
    exact .inl ⟨f, answer, rfl, rfl⟩
  · obtain ⟨done, last, result, rfl, course, closed⟩ := course_closing.mp course
    exact .inr ⟨reply, done, last, result, rfl, course, closed⟩

/-- What a dialogue comes to is fixed by how it is answered. -/
theorem course_unique {d : Dialogue α} {q r : Except Error α} (first : d.Course es q)
    (second : d.Course es r) : q = r := by
  induction d generalizing es with
  | done result => exact first.2.trans second.2.symm
  | note s rest ih => exact ih first second
  | ask x next ih =>
    obtain ⟨answer, others, rfl, first⟩ := first
    obtain ⟨_, _, same, second⟩ := second
    cases same
    exact ih answer first second

end Composition

/-! Courses that succeed -/

section Success

variable {es : List Exchange} {report beginning committing : Fault → Error}

theorem course_andThen_ok {d : Dialogue α} {f : α → Dialogue β} {b : β} :
    (d.andThen f).Course es (.ok b) ↔ ∃ first others a, es = first ++ others
      ∧ d.Course first (.ok a) ∧ (f a).Course others (.ok b) := by
  simp [course_andThen]

theorem course_request_ok {q : Request} {reply : Reply} :
    (request report q).Course es (.ok reply) ↔ es = [⟨q, .ok reply⟩] := by
  rw [course_request]
  constructor
  · rintro ⟨_ | _, rfl, same⟩ <;> cases same
    rfl
  · rintro rfl
    exact ⟨_, rfl, rfl⟩

/-- A query that is prepared, and then answered with a reply. -/
def answered (q : Query) (prepared reply : Reply) : List Exchange :=
  [⟨.prepare q, .ok prepared⟩, ⟨.execute q, .ok reply⟩]

theorem course_perform_ok {q : Query} {reply : Reply} :
    (perform report q).Course es (.ok reply) ↔ ∃ prepared, es = answered q prepared reply := by
  rw [perform, bind_eq, course_andThen_ok]
  simp only [course_request_ok, answered]
  constructor
  · rintro ⟨_, _, prepared, rfl, rfl, rfl⟩
    exact ⟨prepared, rfl⟩
  · rintro ⟨prepared, rfl⟩
    exact ⟨_, _, prepared, rfl, rfl, rfl⟩

theorem course_performOptional_ok {q : Query} {row : Row} :
    (performOptional report q).Course es (.ok (some row)) ↔
      ∃ prepared reply, es = answered q prepared reply ∧ reply.rows = [row] := by
  rw [performOptional, bind_eq, course_andThen_ok]
  simp only [course_perform_ok]
  constructor
  · rintro ⟨_, others, reply, rfl, ⟨prepared, rfl⟩, course⟩
    split at course
    · cases course.2
    · next only rows =>
      obtain ⟨rfl, same⟩ := course
      cases same
      exact ⟨prepared, reply, List.append_nil _, rows⟩
    · cases course.2
  · rintro ⟨prepared, reply, rfl, rows⟩
    refine ⟨_, [], reply, (List.append_nil _).symm, ⟨prepared, rfl⟩, ?_⟩
    simp only [rows]
    exact ⟨rfl, rfl⟩

/-- A transaction that succeeds is begun, does its work and is committed. -/
theorem course_transaction_ok {work : Dialogue α} {a : α} :
    (transaction beginning committing work).Course es (.ok a) ↔ ∃ begun done kept,
      es = ⟨.begin, .ok begun⟩ :: (done ++ [⟨.commit, .ok kept⟩]) ∧ work.Course done (.ok a) := by
  constructor
  · intro course
    obtain ⟨_, _, -, same⟩ | ⟨begun, done, last, result, rfl, work, closed⟩ := course_transaction course
    · cases same
    obtain ⟨_, kept, rfl, rfl, same⟩ | ⟨_, _, -, -, same⟩ | ⟨_, _, -, -, same⟩ := course_close closed
    · cases same
      exact ⟨begun, done, kept, rfl, work⟩
    · cases same
    · cases same
  · rintro ⟨begun, done, kept, rfl, work⟩
    refine ⟨.ok begun, _, rfl, course_closing.mpr ⟨done, _, .ok a, rfl, work, ?_⟩⟩
    exact course_andThen_ok.mpr ⟨_, [], kept, rfl, course_request_ok.mpr rfl, rfl, rfl⟩

theorem course_demand_ok {ε : Type} {result : Except ε α} {report : ε → Error} {a : α} :
    (demand (result.mapError report)).Course es (.ok a) ↔ es = [] ∧ result = .ok a := by
  refine and_congr_right fun _ => ?_
  cases result <;> simp [Except.mapError, eq_comm]

theorem course_read_ok {reader : Reader α} {row : Row} {a : α} :
    (read reader row).Course es (.ok a) ↔ es = [] ∧ reader row = .ok a := course_demand_ok

theorem course_readAll_ok {reader : Reader α} {rows : List Row} {l : List α} :
    (rows.mapM (read reader)).Course es (.ok l) ↔ es = [] ∧ rows.mapM reader = .ok l := by
  rw [mapM_read]
  exact course_demand_ok

end Success

end Dialogue

/-- Whether something is sent in order to open a connection. All else is sent on an open one. -/
def Sent.opens : Sent → Bool
  | encryption | startup .. | password _ => true
  | _ => false

/-- What is sent on a line in exchanges, by whether the line is connected: a request on a lost
connection goes nowhere. -/
def spoken : Bool → List Exchange → List Sent
  | _, [] => []
  | connected, e :: es =>
    if e.request = .connection then spoken (connected || e.answer.isOk) es
    else if connected then
      (Line.trace? e.request e.answer).toList ++ spoken (!Line.isLoss e.answer) es
    else spoken false es

namespace Line

variable {σ α : Type} (peer : Peer σ)

/-- The exchanges in which a dialogue is carried out on a line. -/
def exchanges : Dialogue α → Line → σ → List Exchange
  | .done _, _, _ => []
  | .note statement rest, l, s => exchanges rest (l.note statement) s
  | .ask q next, l, s =>
    let (answer, l, s) := l.serve peer q s
    ⟨q, answer⟩ :: exchanges (next answer) l s

theorem course_exchanges (d : Dialogue α) (l : Line) (s : σ) :
    d.Course (l.exchanges peer d s) (l.run peer d s).1 := by
  induction d generalizing l s with
  | done r => exact ⟨rfl, rfl⟩
  | note statement rest ih => exact ih (l.note statement) s
  | ask q next ih => exact ⟨_, _, rfl, ih _ _ _⟩

/-- Dialing sends nothing but what opens a connection, and succeeds when there is one. -/
theorem dial_spec {l : Line} (lost : l.connected = false) (s : σ) :
    ∃ opening, (l.dial peer s).2.1.sent = l.sent ++ opening ∧ (∀ x ∈ opening, x.opens = true) ∧
      (l.dial peer s).2.1.connected = (l.dial peer s).1.isOk := by
  unfold dial
  split
  · exact ⟨[], by simp, by simp, lost⟩
  · split
    · exact ⟨[.encryption], rfl, by simp [Sent.opens], lost⟩
    · split
      · exact ⟨[startup l.config], rfl, by simp [startup, Sent.opens], lost⟩
      · exact ⟨[startup l.config], rfl, by simp [startup, Sent.opens], lost⟩
      · exact ⟨[startup l.config], rfl, by simp [startup, Sent.opens], rfl⟩
      · dsimp only
        split
        · next p _ =>
          exact ⟨[startup l.config, .password p], by simp [send], by simp [startup, Sent.opens], rfl⟩
        · exact ⟨[startup l.config], rfl, by simp [startup, Sent.opens], lost⟩

theorem opens_of_trace? {q : Request} {answer : Except Fault Reply} {x : Sent}
    (traced : trace? q answer = some x) : x.opens = false := by
  unfold trace? at traced
  split at traced <;> cases traced <;> rfl

theorem exchange_sent (q : Request) (l : Line) (s : σ) :
    (l.exchange peer q s).2.1.sent = l.sent ++ (trace? q (l.exchange peer q s).1).toList := by
  simp only [exchange]
  cases trace? q (peer.answer q s).1 with
  | none => simp
  | some x => rfl

theorem exchange_connected (q : Request) (l : Line) (s : σ) :
    (l.exchange peer q s).2.1.connected = !isLoss (l.exchange peer q s).1 := rfl

theorem serve_connection (l : Line) (s : σ) : l.serve peer .connection s =
    if l.connected then (.ok Reply.empty, l, s)
    else ((l.dial peer s).1.map fun _ => Reply.empty, (l.dial peer s).2) := by
  unfold serve
  cases l.connected <;> rfl

theorem serve_of_ne {q : Request} (other : q ≠ .connection) (l : Line) (s : σ) : l.serve peer q s =
    if l.connected then l.exchange peer q s else (.error .closed, l, s) := by
  unfold serve
  cases q <;> cases l.connected <;> first | rfl | contradiction

/-- What a line has sent when it has served a request, and whether it is connected then. -/
theorem serve_spec (q : Request) (l : Line) (s : σ) :
    ∃ new, (l.serve peer q s).2.1.sent = l.sent ++ new ∧ ∀ es,
      new.filter (!·.opens) ++ spoken (l.serve peer q s).2.1.connected es
        = spoken l.connected (⟨q, (l.serve peer q s).1⟩ :: es) := by
  by_cases connecting : q = .connection
  · subst connecting
    rw [serve_connection]
    cases alive : l.connected with
    | true => exact ⟨[], by simp, fun es => by simp [spoken, alive]⟩
    | false =>
      obtain ⟨opening, sent, opens, connected⟩ := dial_spec peer alive s
      have silent : opening.filter (!·.opens) = [] := by
        simpa [List.filter_eq_nil_iff] using opens
      refine ⟨opening, sent, fun es => ?_⟩
      cases outcome : (l.dial peer s).1 <;>
        simp [spoken, silent, connected, outcome, Except.isOk, Except.toBool, Except.map]
  · rw [serve_of_ne peer connecting]
    cases alive : l.connected with
    | false => exact ⟨[], by simp, fun es => by simp [spoken, connecting, alive]⟩
    | true =>
      refine ⟨_, exchange_sent peer q l s, fun es => ?_⟩
      have heard : ((trace? q (l.exchange peer q s).1).toList).filter (!·.opens)
          = (trace? q (l.exchange peer q s).1).toList := by
        rw [List.filter_eq_self]
        intro x mem
        rw [opens_of_trace? (Option.mem_toList.mp mem)]
        rfl
      simp [spoken, connecting, heard, exchange_connected]

/-- What a line sends is what its exchanges tell, apart from the opening of connections. -/
theorem run_sent (d : Dialogue α) (l : Line) (s : σ) :
    ∃ new, (l.run peer d s).2.1.sent = l.sent ++ new ∧
      new.filter (!·.opens) = spoken l.connected (l.exchanges peer d s) := by
  induction d generalizing l s with
  | done r => exact ⟨[], by simp [run], rfl⟩
  | note statement rest ih =>
    have kept : (l.note statement).sent = l.sent ∧ (l.note statement).connected = l.connected := by
      unfold note
      split <;> exact ⟨rfl, rfl⟩
    obtain ⟨new, sent, same⟩ := ih (l.note statement) s
    rw [kept.1] at sent
    rw [kept.2] at same
    exact ⟨new, sent, same⟩
  | ask q next ih =>
    obtain ⟨first, served, heard⟩ := serve_spec peer q l s
    obtain ⟨new, sent, same⟩ := ih (l.serve peer q s).1 (l.serve peer q s).2.1 (l.serve peer q s).2.2
    refine ⟨first ++ new, ?_, ?_⟩
    · simp only [run, sent, served, List.append_assoc]
    · rw [List.filter_append, same, heard]
      rfl

end Line

end AuditTrail.Server
