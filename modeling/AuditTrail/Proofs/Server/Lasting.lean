import AuditTrail.Proofs.Server.Discipline
import AuditTrail.Proofs.Server.Lifecycle

/-! What a client leaves behind on a server when an operation fails. What is done in a transaction waits
for the commit and goes with the rollback; what is done outside of one lasts at once. An operation that
works in one transaction leaves nothing. The change of a project is one statement without a transaction,
and its row is read when the change lasts already. -/
namespace AuditTrail.Server

/-! What lasts -/

/-- Whether a server has done something that changes its data. -/
def Exchange.isDone (e : Exchange) : Bool :=
  match e.request with
  | .script _ | .execute _ => e.answer.isOk
  | _ => false

/-- What a server has done for a client, as far as the client is told: what lasts, and what has been done
in the transaction that is open, if one is. -/
structure Doings where
  lasting : List Exchange
  pending : Option (List Exchange)

namespace Doings

def start : Doings := ⟨[], none⟩

/-- A transaction ends with a commit, a rollback, or its connection. -/
def step (d : Doings) (e : Exchange) : Doings :=
  match e.request, e.answer with
  | .begin, .ok _ => { d with pending := some [] }
  | .commit, .ok _ => ⟨d.lasting ++ d.pending.getD [], none⟩
  | .commit, .error _ | .rollback, _ | _, .error .closed => { d with pending := none }
  | _, _ =>
    if e.isDone then
      match d.pending with
      | some held => { d with pending := some (held ++ [e]) }
      | none => { d with lasting := d.lasting ++ [e] }
    else d

end Doings

/-- The exchanges whose effects are permanent after all of some exchanges. -/
def lasting (es : List Exchange) : List Exchange :=
  (es.foldl Doings.step .start).lasting

/-- Whether a statement has found rows. -/
def Exchange.Matches (e : Exchange) : Prop := ∃ reply, e.answer = .ok reply ∧ reply.rows ≠ []

theorem Doings.step_plain {e : Exchange} (plain : e.request ≠ .begin) (kept : List Exchange) :
    Doings.step ⟨kept, none⟩ e = ⟨kept ++ [e].filter (·.isDone), none⟩ := by
  obtain ⟨q, f | reply⟩ := e
  · cases q <;> cases f <;> simp [step, Exchange.isDone, Except.isOk, Except.toBool]
  · cases q <;> first | contradiction | simp [step, Exchange.isDone, Except.isOk, Except.toBool]

/-- Outside of transactions everything lasts that is done. -/
theorem lasting_eq_filter {es : List Exchange} (plain : .begin ∉ requests es) :
    lasting es = es.filter (·.isDone) := by
  have run (kept : List Exchange) : es.foldl Doings.step ⟨kept, none⟩
      = ⟨kept ++ es.filter (·.isDone), none⟩ := by
    induction es generalizing kept with
    | nil => simp
    | cons e es ih =>
      rw [requests_cons, List.mem_cons, not_or] at plain
      rw [List.foldl_cons, Doings.step_plain (Ne.symm plain.1), ih plain.2, List.append_assoc,
        ← List.filter_append, List.singleton_append]
  exact congrArg Doings.lasting (run [])

/-! Operations in one transaction -/

namespace Doings

/-- Work in an open transaction adds nothing to what lasts, and leaves it open if it is answered well. -/
theorem exists_step {e : Exchange} (work : e.request.isWork = true) (kept held : List Exchange) :
    ∃ pending, step ⟨kept, some held⟩ e = ⟨kept, pending⟩ ∧
      (e.answer.isOk = true → pending.isSome = true) := by
  obtain ⟨q, f | reply⟩ := e
  · cases q <;> cases f <;> first | contradiction | exact ⟨_, rfl, nofun⟩
  · cases q <;> first | contradiction | exact ⟨_, rfl, fun _ => rfl⟩

theorem exists_foldl {es : List Exchange}
    (work : ∀ e ∈ es, e.request.isWork = true ∧ e.answer.isOk = true) (kept held : List Exchange) :
    ∃ more, es.foldl step ⟨kept, some held⟩ = ⟨kept, some more⟩ := by
  induction es generalizing held with
  | nil => exact ⟨held, rfl⟩
  | cons e es ih =>
    obtain ⟨⟨first, well⟩, rest⟩ := List.forall_mem_cons.mp work
    obtain ⟨pending, stepped, stays⟩ := exists_step first kept held
    obtain ⟨more, rfl⟩ := Option.isSome_iff_exists.mp (stays well)
    rw [List.foldl_cons, stepped]
    exact ih rest more

end Doings

theorem lasting_begun (c b : Reply) (es : List Exchange) :
    lasting (⟨.connection, .ok c⟩ :: ⟨.begin, .ok b⟩ :: es)
      = (es.foldl Doings.step ⟨[], some []⟩).lasting := rfl

/-- An operation that works in one transaction leaves nothing behind when it fails. -/
theorem Transacted.lasting_eq_nil {α : Type} {gate : Project → Bool}
    {beginning committing : Fault → Error} {es : List Exchange} {e : Error}
    (transacted : Transacted (α := α) gate beginning committing es (.error e)) : lasting es = [] := by
  have answered {work : List Exchange}
      (done : ∀ x ∈ work, x.request.isWork = true ∧ x.Succeeds gate) :
      ∀ x ∈ work, x.request.isWork = true ∧ x.answer.isOk = true := by
    intro x mem
    obtain ⟨works, reply, answer, -⟩ := done x mem
    exact ⟨works, by rw [answer]; rfl⟩
  cases transacted with
  | unconnected f => cases f <;> rfl
  | unbegun c f answer => cases f <;> rfl
  | abandoned c b answer e done failed =>
    obtain ⟨held, worked⟩ := Doings.exists_foldl (answered done) [] []
    obtain ⟨pending, stepped, -⟩ := Doings.exists_step failed.1 [] held
    rw [lasting_begun, List.foldl_append, worked, List.foldl_cons, stepped]
    cases answer <;> rfl
  | uncommitted c b f done =>
    obtain ⟨held, worked⟩ := Doings.exists_foldl (answered done) [] []
    rw [lasting_begun, List.foldl_append, worked]
    rfl

/-- Whatever a server answers, a request that works in one transaction leaves nothing when it fails. -/
theorem failed_transactions_leave_nothing {σ : Type} (peer : Peer σ) (config : ServerConfig) (l : Line)
    (state : σ) {r : AuditTrail.Request} {text : String} (works : commitFailure? r = some text) {e : Error}
    (failed : (l.run peer ((store config).handle r) state).1 = .error e) :
    lasting (l.exchanges peer ((store config).handle r) state) = [] := by
  cases rejected : rejection? r with
  | some e =>
    rw [handle_rejected rejected]
    rfl
  | none =>
    have course := transacts_of_accepted works rejected _ _
      (Line.course_exchanges peer ((store config).handle r) l state)
    rw [failed] at course
    exact course.lasting_eq_nil

/-! The change of a project -/

open Dialogue Fault

/-- What comes of the rows that the change of a project has given. -/
def updated (id : Id) : List Row → Except Error Project
  | [] => .error (.projectNotFound id)
  | [row] => (Reader.project row).mapError fun f => .internal StoreKind.server.name f.message
  | _ => .error (internal "Failed to update project" .rowCount)

/-- Rows that are not one project: several of them, or one that cannot be read. -/
def Unreadable : List Row → Prop
  | [] => False
  | [row] => ∃ f, Reader.project row = .error f
  | _ => True

theorem exists_updated_eq_error_iff {id : Id} {rows : List Row} :
    (∃ e, updated id rows = .error e) ↔ rows = [] ∨ Unreadable rows := by
  match rows with
  | [] => exact iff_of_true ⟨_, rfl⟩ (.inl rfl)
  | [row] =>
    cases read : Reader.project row <;> simp [updated, Unreadable, read, Except.mapError]
  | _ :: _ :: _ => exact iff_of_true ⟨_, rfl⟩ (.inr trivial)

/-- The exchanges of the change of a project, and its result. -/
inductive Updates (id : Id) (s : Statement) : List Exchange → Except Error Project → Prop
  | unconnected (f : Fault) : Updates id s [⟨.connection, .error f⟩] (.error f.connection)
  | unprepared (c : Reply) (f : Fault) :
    Updates id s [⟨.connection, .ok c⟩, ⟨.prepare (.statement s), .error f⟩]
      (.error (internal "Failed to update project" f))
  | refused (c p : Reply) (f : Fault) :
    Updates id s [⟨.connection, .ok c⟩, ⟨.prepare (.statement s), .ok p⟩,
      ⟨.execute (.statement s), .error f⟩] (.error (internal "Failed to update project" f))
  | answered (c p reply : Reply) :
    Updates id s [⟨.connection, .ok c⟩, ⟨.prepare (.statement s), .ok p⟩,
      ⟨.execute (.statement s), .ok reply⟩] (updated id reply.rows)

theorem updates_of_course {id : Id} {u : ProjectUpdate} (some : u.isEmpty = false) {es : List Exchange}
    {r : Except Error Project} (course : (updateProject id u).Course es r) :
    Updates id (.updateProject id u) es r := by
  rw [updateProject, if_neg (Bool.eq_false_iff.mp some)] at course
  obtain ⟨f | c, others, rfl, course⟩ := course
  · obtain ⟨rfl, rfl⟩ := course
    exact .unconnected f
  obtain ⟨f | p, others, rfl, course⟩ := course
  · obtain ⟨rfl, rfl⟩ := course
    exact .unprepared c f
  obtain ⟨f | reply, others, rfl, course⟩ := course
  · obtain ⟨rfl, rfl⟩ := course
    exact .refused c p f
  have ends : others = [] ∧ r = updated id reply.rows := by
    obtain ⟨_ | ⟨row, _ | ⟨next, rest⟩⟩, affected⟩ := reply <;> exact course
  obtain ⟨rfl, rfl⟩ := ends
  exact .answered c p reply

section

variable {id : Id} {s : Statement} {es : List Exchange} {r : Except Error Project}

theorem Updates.requests_prefix (updates : Updates id s es r) :
    requests es <+: .connection :: asking s := by
  cases updates with
  | unconnected f => exact ⟨asking s, rfl⟩
  | unprepared c f => exact ⟨[.execute (.statement s)], rfl⟩
  | refused c p f => exact List.prefix_refl _
  | answered c p reply => exact List.prefix_refl _

/-- The one thing that can have been done is the change itself. -/
theorem Updates.eq_of_done (updates : Updates id s es r) {x : Exchange} (mem : x ∈ es)
    (done : x.isDone = true) : ∃ reply, x = ⟨.execute (.statement s), .ok reply⟩ ∧
      r = updated id reply.rows := by
  cases updates with
  | unconnected f =>
    obtain rfl := List.mem_singleton.mp mem
    contradiction
  | unprepared c f =>
    simp only [List.mem_cons, List.not_mem_nil, or_false] at mem
    rcases mem with rfl | rfl <;> contradiction
  | refused c p f =>
    simp only [List.mem_cons, List.not_mem_nil, or_false] at mem
    rcases mem with rfl | rfl | rfl <;> contradiction
  | answered c p reply =>
    simp only [List.mem_cons, List.not_mem_nil, or_false] at mem
    rcases mem with rfl | rfl | rfl
    · contradiction
    · contradiction
    · exact ⟨reply, rfl, rfl⟩

theorem Updates.lasting_eq (updates : Updates id s es r) : lasting es = es.filter (·.isDone) :=
  lasting_eq_filter fun begun => by
    have asked := updates.requests_prefix.subset begun
    simp [asking] at asked

end

/-- The change of a project is sent without a transaction, so it lasts as soon as it is answered, and
only then its row is read. Whatever a server answers, a change that fails has left something behind
exactly if the answer to it has several rows or one that cannot be read. -/
theorem project_update_lasts_before_it_is_read {σ : Type} (peer : Peer σ) (config : ServerConfig)
    (l : Line) (state : σ) (id : Id) (u : ProjectUpdate) (some : u.isEmpty = false) :
    let s := Statement.updateProject id u
    let d := (store config).updateProject id u
    let es := l.exchanges peer d state
    let result := (l.run peer d state).1
    requests es <+: [.connection, .prepare (.statement s), .execute (.statement s)] ∧
    (∀ x, x ∈ lasting es ↔ x ∈ es ∧ ∃ reply, x = ⟨.execute (.statement s), .ok reply⟩) ∧
    (∀ reply, ⟨.execute (.statement s), .ok reply⟩ ∈ es → result = updated id reply.rows) ∧
    ((∃ e, result = .error e) → ((∃ x ∈ lasting es, x.Matches) ↔
      ∃ reply, ⟨.execute (.statement s), .ok reply⟩ ∈ es ∧ Unreadable reply.rows)) := by
  intro s d es result
  have updates : Updates id s es result := updates_of_course some (Line.course_exchanges peer d l state)
  have lasts (x : Exchange) :
      x ∈ lasting es ↔ x ∈ es ∧ ∃ reply, x = ⟨.execute (.statement s), .ok reply⟩ := by
    rw [updates.lasting_eq, List.mem_filter]
    refine and_congr_right fun mem => ⟨fun done => ?_, ?_⟩
    · obtain ⟨reply, same, -⟩ := updates.eq_of_done mem done
      exact ⟨reply, same⟩
    · rintro ⟨reply, rfl⟩
      rfl
  have comes (reply : Reply) (mem : ⟨.execute (.statement s), .ok reply⟩ ∈ es) :
      result = updated id reply.rows := by
    obtain ⟨same, eq, outcome⟩ := updates.eq_of_done mem rfl
    cases eq
    exact outcome
  refine ⟨updates.requests_prefix, lasts, comes, ?_⟩
  rintro ⟨e, failed⟩
  constructor
  · rintro ⟨x, mem, reply, answer, found⟩
    obtain ⟨there, given, rfl⟩ := (lasts x).mp mem
    cases answer
    have wrong := exists_updated_eq_error_iff.mp ⟨e, (comes reply there).symm.trans failed⟩
    exact ⟨reply, there, wrong.resolve_left found⟩
  · rintro ⟨reply, there, unreadable⟩
    refine ⟨_, (lasts _).mpr ⟨there, reply, rfl⟩, reply, rfl, ?_⟩
    rintro none
    rw [none] at unreadable
    exact unreadable

/-- A row of a project that says it was created after the last year that can be read. -/
def lateRow : Row :=
  [(.id, .id (.ofNat 10)), (.createTime, .moment 8772853315200000000), (.displayName, .text "x"),
    (.updateRecords, .null), (.deleteRecords, .null)]

/-- The change is answered with a row that cannot be read. It fails, and lasts. -/
theorem project_update_lasts_before_it_is_read_late :
    let u : ProjectUpdate := ⟨some "x", none, none⟩
    let script : Script := ⟨.welcome, .ok .empty, .ok .empty, [.answer (.ok ⟨[lateRow], 1⟩)]⟩
    let d := (store .default).updateProject (.ofNat 10) u
    let es := (Line.idle .default).exchanges (Peer.scripted true) d script
    u.isEmpty = false ∧ ∃ x ∈ lasting es, x.Matches := by
  intro u script d es
  obtain ⟨-, -, -, leaves⟩ := project_update_lasts_before_it_is_read (Peer.scripted true) .default
    (Line.idle .default) script (.ofNat 10) u rfl
  have unreadable : Unreadable [lateRow] := ⟨.undecodable .createTime 1, by decide +kernel⟩
  have failed : ∃ e, ((Line.idle .default).run (Peer.scripted true) d script).1 = .error e :=
    ⟨.internal "postgres" "Failed to read column create_time: error deserializing column 1",
      by decide +kernel⟩
  exact ⟨rfl, (leaves failed).mpr ⟨⟨[lateRow], 1⟩, by decide +kernel, unreadable⟩⟩

/-- An update that fails is not always refused, without a match, or rolled back. -/
theorem project_update_fails_and_lasts :
    ¬ ∀ (script : Script) (id : Id) (u : ProjectUpdate), u.isEmpty = false →
      let d := (store .default).updateProject id u
      (∃ e, ((Line.idle .default).run (Peer.scripted true) d script).1 = .error e) →
        ∀ x ∈ lasting ((Line.idle .default).exchanges (Peer.scripted true) d script), ¬ x.Matches := by
  intro traceless
  let script : Script := ⟨.welcome, .ok .empty, .ok .empty, [.answer (.ok ⟨[lateRow], 1⟩)]⟩
  refine traceless script (.ofNat 10) ⟨some "x", none, none⟩ rfl
    ⟨.internal "postgres" "Failed to read column create_time: error deserializing column 1", ?_⟩
    ⟨.execute (.statement (.updateProject (.ofNat 10) ⟨some "x", none, none⟩)), .ok ⟨[lateRow], 1⟩⟩
    ?_ ⟨⟨[lateRow], 1⟩, rfl, by simp⟩
  · decide +kernel
  · decide +kernel

end AuditTrail.Server
