import AuditTrail.Proofs.Server.Lifecycle

/-! Transactions that learn something from a server and go on with it. Either one ends before that,
whatever would have followed, or the rest begins with what was learned. -/
namespace AuditTrail.Server

open Dialogue

/-! Dialogues in parts -/

namespace Line

variable {σ α β : Type} (peer : Peer σ)

theorem run_andThen (d : Dialogue α) (f : α → Dialogue β) (l : Line) (s : σ) :
    l.run peer (d.andThen f) s = match l.run peer d s with
      | (.ok a, l, s) => l.run peer (f a) s
      | (.error e, l, s) => (.error e, l, s) := by
  induction d generalizing l s with
  | done r => cases r <;> rfl
  | note statement rest ih => exact ih _ _
  | ask q next ih => exact ih _ _ _

theorem exchanges_andThen (d : Dialogue α) (f : α → Dialogue β) (l : Line) (s : σ) :
    l.exchanges peer (d.andThen f) s = l.exchanges peer d s ++ match l.run peer d s with
      | (.ok a, l, s) => l.exchanges peer (f a) s
      | (.error _, _, _) => [] := by
  induction d generalizing l s with
  | done r => cases r <;> rfl
  | note statement rest ih => exact ih _ _
  | ask q next ih => exact congrArg (List.cons _) (ih _ _ _)

theorem run_map (d : Dialogue α) (f : α → β) (l : Line) (s : σ) :
    l.run peer (d.andThen fun a => done (.ok (f a))) s
      = ((l.run peer d s).1.map f, (l.run peer d s).2) := by
  rw [run_andThen]
  rcases l.run peer d s with ⟨e | a, l', s'⟩ <;> rfl

theorem exchanges_map (d : Dialogue α) (f : α → β) (l : Line) (s : σ) :
    l.exchanges peer (d.andThen fun a => done (.ok (f a))) s = l.exchanges peer d s := by
  rw [exchanges_andThen]
  rcases l.run peer d s with ⟨e | a, l', s'⟩ <;> exact List.append_nil _

theorem run_closing (committing : Fault → Error) (d : Dialogue α) (l : Line) (s : σ) :
    l.run peer (d.closing committing) s = (l.run peer d s).2.1.run peer
      (close committing (l.run peer d s).1) (l.run peer d s).2.2 := by
  induction d generalizing l s with
  | done r => rfl
  | note statement rest ih => exact ih _ _
  | ask q next ih => exact ih _ _ _

theorem exchanges_closing (committing : Fault → Error) (d : Dialogue α) (l : Line) (s : σ) :
    l.exchanges peer (d.closing committing) s = l.exchanges peer d s ++
      (l.run peer d s).2.1.exchanges peer (close committing (l.run peer d s).1)
        (l.run peer d s).2.2 := by
  induction d generalizing l s with
  | done r => rfl
  | note statement rest ih => exact ih _ _
  | ask q next ih => exact congrArg (List.cons _) (ih _ _ _)

end Line

/-! Transactions that learn something -/

/-- A transaction that learns something and goes on with it. -/
def learning {α β : Type} (beginning committing : Fault → Error) (learn : Dialogue β)
    (rest : β → Dialogue α) : Dialogue α :=
  connect.andThen fun _ => Dialogue.transaction beginning committing (learn.andThen rest)

section

variable {σ α β : Type} (peer : Peer σ) (beginning committing : Fault → Error) (learn : Dialogue β)

/-- How a transaction goes that learns something on a line: it ends before that, whatever would have
followed, or the rest begins with what was learned. -/
inductive Learning (α : Type) (l : Line) (s : σ) : Prop
  | early (es : List Exchange) (x : Except Error α × Line × σ)
    (alike : ∀ rest : β → Dialogue α,
      l.exchanges peer (learning beginning committing learn rest) s = es ∧
      l.run peer (learning beginning committing learn rest) s = x)
    (unlearned : ∀ e ∈ es, e.request ∈ [.connection, .begin, .rollback] ∨
      ∃ failed err, learn.Course failed (.error err) ∧ e ∈ failed)
  | learned (front : List Exchange) (l₁ l₂ : Line) (s₁ s₂ : σ) (b : β)
    (learns : l₁.run peer learn s₁ = (.ok b, l₂, s₂))
    (goes : ∀ rest : β → Dialogue α,
      l.exchanges peer (learning beginning committing learn rest) s =
        front ++ l₁.exchanges peer learn s₁ ++ l₂.exchanges peer ((rest b).closing committing) s₂ ∧
      l.run peer (learning beginning committing learn rest) s =
        l₂.run peer ((rest b).closing committing) s₂)

theorem learning_cases (l : Line) (s : σ) :
    Learning peer beginning committing learn α l s := by
  have connecting : ∀ e ∈ l.exchanges peer connect s, e.request = .connection := fun e mem =>
    List.mem_singleton.mp ((asks_connect _ _ (Line.course_exchanges peer connect l s)).1.subset
      (List.mem_map_of_mem mem))
  rcases connected : l.run peer connect s with ⟨e | u, l₁, s₁⟩
  · refine .early (l.exchanges peer connect s) (.error e, l₁, s₁) (fun rest => ?_) fun e mem => ?_
    · simp [learning, Line.exchanges_andThen, Line.run_andThen, connected]
    · simp [connecting e mem]
  rcases begun : l₁.serve peer .begin s₁ with ⟨f | reply, l₂, s₂⟩
  · refine .early (l.exchanges peer connect s ++ [⟨.begin, .error f⟩,
      ⟨.rollback, (l₂.serve peer .rollback s₂).1⟩]) (l₂.run peer (giveUp (beginning f)) s₂)
      (fun rest => ?_) fun e mem => ?_
    · simp [learning, Line.exchanges_andThen, Line.run_andThen, connected, Dialogue.transaction,
        Line.exchanges, Line.run, begun, giveUp]
    · simp only [List.mem_append, List.mem_cons, List.not_mem_nil, or_false] at mem
      rcases mem with mem | rfl | rfl
      · simp [connecting e mem]
      · simp
      · simp
  rcases learned : l₂.run peer learn s₂ with ⟨e | b, l₃, s₃⟩
  · refine .early (l.exchanges peer connect s ++ ⟨.begin, .ok reply⟩ :: (l₂.exchanges peer learn s₂ ++
      [⟨.rollback, (l₃.serve peer .rollback s₃).1⟩])) (l₃.run peer (giveUp e) s₃)
      (fun rest => ?_) fun x mem => ?_
    · simp [learning, Line.exchanges_andThen, Line.run_andThen, connected, Dialogue.transaction,
        Line.exchanges, Line.run, begun, learned, Line.exchanges_closing, Line.run_closing, close, giveUp]
    · simp only [List.mem_append, List.mem_cons, List.not_mem_nil, or_false] at mem
      rcases mem with mem | rfl | mem | rfl
      · simp [connecting x mem]
      · simp
      · have course := Line.course_exchanges peer learn l₂ s₂
        rw [learned] at course
        exact .inr ⟨_, e, course, mem⟩
      · simp
  · refine .learned (l.exchanges peer connect s ++ [⟨.begin, .ok reply⟩]) l₂ l₃ s₂ s₃ b learned fun rest => ?_
    simp [learning, Line.exchanges_andThen, Line.run_andThen, connected, Dialogue.transaction,
      Line.exchanges, Line.run, begun, learned, Line.exchanges_closing, Line.run_closing]

end

/-! Numbers that are shown -/

section

variable {report : Fault → Error} {s : Statement} {e : Error} {f : Option Row → Dialogue Int}

/-- Where no number was learned, none was shown. -/
theorem not_shows_of_failed (missing : f none = done (.error e))
    (found : ∀ row, f (some row) = readNumber row) {es : List Exchange} {err : Error}
    (course : ((Dialogue.performOptional report (.statement s)).andThen f).Course es (.error err)) :
    ∀ x ∈ es, ∀ n, ¬ x.Shows s n := by
  rintro x mem n ⟨asked, reply, row, answer, rows, number⟩
  obtain ⟨f₁ | p, others, rfl, course⟩ := course
  · obtain ⟨rfl, -⟩ := course
    obtain rfl := List.mem_singleton.mp mem
    contradiction
  obtain ⟨f₁ | given, others, rfl, course⟩ := course
  · obtain ⟨rfl, -⟩ := course
    simp only [List.mem_cons, List.not_mem_nil, or_false] at mem
    rcases mem with rfl | rfl <;> contradiction
  obtain ⟨_ | ⟨first, _ | ⟨second, rest⟩⟩, affected⟩ := given
  · have ended : (f none).Course others (.error err) := course
    rw [missing] at ended
    obtain ⟨rfl, -⟩ := ended
    simp only [List.mem_cons, List.not_mem_nil, or_false] at mem
    rcases mem with rfl | rfl
    · contradiction
    · cases answer
      contradiction
  · have reading : (f (some first)).Course others (.error err) := course
    rw [found] at reading
    have silent : others = [] := List.map_eq_nil_iff.mp
      (List.prefix_nil.mp (asks_readNumber first _ _ reading).1)
    subst silent
    simp only [List.mem_cons, List.not_mem_nil, or_false] at mem
    rcases mem with rfl | rfl
    · contradiction
    · cases answer
      cases rows
      rw [readNumber, number] at reading
      cases reading.2
  · obtain ⟨rfl, -⟩ := course
    simp only [List.mem_cons, List.not_mem_nil, or_false] at mem
    rcases mem with rfl | rfl
    · contradiction
    · cases answer
      cases rows

end

/-! Connections after an answer -/

namespace Dialogue

variable {σ α β : Type} {peer : Peer σ}

/-- Whether a dialogue that comes to something leaves a connection. -/
def LeavesConnected (peer : Peer σ) (d : Dialogue α) : Prop :=
  ∀ (l : Line) (s : σ) (a : α) (l' : Line) (s' : σ), l.run peer d s = (.ok a, l', s') →
    l'.connected = true

theorem leavesConnected_request {report : Fault → Error} {q : Request} (other : q ≠ .connection) :
    (request report q).LeavesConnected peer := by
  intro l s a l' s' ran
  have served := Line.serve_of_ne peer other l s
  cases alive : l.connected with
  | false =>
    rw [alive, if_neg Bool.false_ne_true] at served
    simp [request, Line.run, served] at ran
  | true =>
    rw [alive, if_pos rfl] at served
    have connected := Line.exchange_connected peer q l s
    rcases answer : l.exchange peer q s with ⟨f | reply, l₁, s₁⟩
    · simp [request, Line.run, served, answer] at ran
    · simp only [request, Line.run, served, answer, Prod.mk.injEq] at ran
      rw [answer] at connected
      obtain ⟨-, rfl, -⟩ := ran
      exact connected

theorem LeavesConnected.andThen {d : Dialogue α} {f : α → Dialogue β}
    (later : ∀ a, (f a).LeavesConnected peer) : (d.andThen f).LeavesConnected peer := by
  intro l s b l' s' ran
  rw [Line.run_andThen] at ran
  rcases first : l.run peer d s with ⟨e | a, l₁, s₁⟩
  · rw [first] at ran
    cases ran
  · rw [first] at ran
    exact later a l₁ s₁ b l' s' ran

theorem LeavesConnected.andThen_done {d : Dialogue α} {f : α → Dialogue β}
    (leaves : d.LeavesConnected peer) (ends : ∀ a, ∃ r, f a = done r) :
    (d.andThen f).LeavesConnected peer := by
  intro l s b l' s' ran
  rw [Line.run_andThen] at ran
  rcases first : l.run peer d s with ⟨e | a, l₁, s₁⟩
  · rw [first] at ran
    cases ran
  · obtain ⟨r, done⟩ := ends a
    simp only [first, done, Line.run, Prod.mk.injEq] at ran
    obtain ⟨-, rfl, -⟩ := ran
    exact leaves l s a l₁ s₁ first

theorem leavesConnected_found {report : Fault → Error} {q : Query} {e : Error}
    {f : Option Row → Dialogue Int} (missing : f none = done (.error e))
    (found : ∀ row, f (some row) = readNumber row) :
    ((Dialogue.performOptional report q).andThen f).LeavesConnected peer := by
  have performed : (Dialogue.perform report q).LeavesConnected peer :=
    .andThen fun _ => leavesConnected_request (by simp)
  have optional : (Dialogue.performOptional report q).LeavesConnected peer := by
    refine performed.andThen_done fun reply => ?_
    split <;> exact ⟨_, rfl⟩
  refine optional.andThen_done fun o => ?_
  cases o with
  | none => exact ⟨_, missing⟩
  | some row =>
    rw [found]
    exact ⟨_, rfl⟩

theorem LeavesConnected.note {d : Dialogue α} (s : Statement) (leaves : d.LeavesConnected peer) :
    (Dialogue.note s d).LeavesConnected peer :=
  fun l state a l' s' ran => leaves (l.note s) state a l' s' ran

end Dialogue

/-! Scripts that are sent -/

section

variable {σ α : Type} (peer : Peer σ) {text : String}

/-- A script that is run on a connection is sent. -/
theorem sends_script {l : Line} (connected : l.connected = true) (next : Except Fault Reply → Dialogue α)
    (s : σ) : ∃ more, (l.run peer (.ask (.script text) next) s).2.1.sent
      = l.sent ++ .script text :: more := by
  have served := Line.serve_of_ne peer (q := .script text) (by simp) l s
  rw [connected, if_pos rfl] at served
  have sent := Line.exchange_sent peer (.script text) l s
  obtain ⟨more, rest, -⟩ := Line.run_sent peer (next (l.exchange peer (.script text) s).1)
    (l.exchange peer (.script text) s).2.1 (l.exchange peer (.script text) s).2.2
  refine ⟨more, ?_⟩
  rw [Line.run, served]
  simp only [rest, sent]
  simp [Line.trace?]

theorem eq_script_of_trace? {q : Request} {answer : Except Fault Reply}
    (traced : Line.trace? q answer = some (.script text)) : q = .script text := by
  unfold Line.trace? at traced
  split at traced <;> cases traced
  rfl

theorem mem_requests_of_spoken {es : List Exchange} {connected : Bool}
    (sent : .script text ∈ spoken connected es) : .script text ∈ requests es := by
  induction es generalizing connected with
  | nil => contradiction
  | cons e es ih =>
    obtain ⟨q, answer⟩ := e
    rw [requests_cons, List.mem_cons]
    rw [spoken] at sent
    split at sent
    · exact .inr (ih sent)
    · split at sent
      · rcases List.mem_append.mp sent with now | later
        · exact .inl (eq_script_of_trace? (Option.mem_toList.mp now)).symm
        · exact .inr (ih later)
      · exact .inr (ih sent)

/-- A dialogue that never asks for a script sends none. -/
theorem sends_no_script {d : Dialogue α} (silent : ∀ es r, d.Course es r → .script text ∉ requests es)
    (l : Line) (s : σ) : ∃ new, (l.run peer d s).2.1.sent = l.sent ++ new ∧ .script text ∉ new := by
  obtain ⟨new, sent, heard⟩ := Line.run_sent peer d l s
  refine ⟨new, sent, fun mem => ?_⟩
  have kept : .script text ∈ new.filter (!·.opens) := List.mem_filter.mpr ⟨mem, rfl⟩
  rw [heard] at kept
  exact silent _ _ (Line.course_exchanges peer d l s) (mem_requests_of_spoken kept)

end

/-! Operations that learn a number -/

/-- It makes no difference what would be done with something that is not learned. -/
theorem run_learning_eq {σ α β : Type} {peer : Peer σ} {beginning committing : Fault → Error}
    {learn : Dialogue β} {first second : β → Dialogue α} {l : Line} {state : σ}
    (agree : ∀ es b, learn.Course es (.ok b) →
      (∀ e ∈ es, e ∈ l.exchanges peer (learning beginning committing learn first) state) →
        first b = second b) :
    l.run peer (learning beginning committing learn first) state
      = l.run peer (learning beginning committing learn second) state := by
  cases learning_cases (α := α) peer beginning committing learn l state with
  | early es x alike => exact (alike first).2.trans (alike second).2.symm
  | learned front l₁ l₂ s₁ s₂ b ran goes =>
    have course := Line.course_exchanges peer learn l₁ s₁
    rw [ran] at course
    have same := agree _ b course fun e mem => by
      rw [(goes first).1]
      exact List.mem_append_left _ (List.mem_append_right _ mem)
    rw [(goes first).2, (goes second).2, same]

section

variable {σ α : Type} {peer : Peer σ} {beginning committing : Fault → Error} {learn : Dialogue Int}
  {s : Statement} {first second : Int → Dialogue α} {l : Line} {state : σ}

theorem not_shows_of_control {e : Exchange} (control : e.request ∈ [.connection, .begin, .rollback])
    (n : Int) : ¬ e.Shows s n := by
  rintro ⟨asked, -⟩
  rw [asked] at control
  simp at control

/-- Once a number is shown, a script is sent by one and not by the other. -/
theorem sent_learning_ne (leaves : learn.LeavesConnected peer)
    (fails : ∀ es err, learn.Course es (.error err) → ∀ x ∈ es, ∀ n, ¬ x.Shows s n)
    (scripts : ∀ n, ∃ text next, (first n).closing committing = .ask (.script text) next ∧
      ∀ es r, ((second n).closing committing).Course es r → .script text ∉ requests es)
    (shown : ∃ e ∈ l.exchanges peer (learning beginning committing learn first) state,
      ∃ n, e.Shows s n) :
    (l.run peer (learning beginning committing learn first) state).2.1.sent
      ≠ (l.run peer (learning beginning committing learn second) state).2.1.sent := by
  cases learning_cases (α := α) peer beginning committing learn l state with
  | early es x alike unlearned =>
    obtain ⟨e, mem, n, shows⟩ := shown
    rw [(alike first).1] at mem
    rcases unlearned e mem with control | ⟨failed, err, course, inside⟩
    · exact absurd shows (not_shows_of_control control n)
    · exact absurd shows (fails failed err course e inside n)
  | learned front l₁ l₂ s₁ s₂ n ran goes =>
    obtain ⟨text, next, asks, silent⟩ := scripts n
    have connected := leaves _ _ _ _ _ ran
    obtain ⟨more, sent⟩ := sends_script peer connected next s₂
    obtain ⟨new, unsent, none⟩ := sends_no_script peer silent l₂ s₂
    rw [(goes first).2, (goes second).2, asks, sent, unsent]
    intro same
    rw [← List.append_cancel_left same] at none
    exact none List.mem_cons_self

end

theorem script_not_mem_closing {α : Type} {committing : Fault → Error} {plan : List Request}
    {d : Dialogue α} (asks : d.Asks plan) {text : String} (fresh : .script text ∉ plan)
    {es : List Exchange} {r : Except Error α} (course : (d.closing committing).Course es r) :
    .script text ∉ requests es := by
  obtain ⟨work, last, result, rfl, worked, closed⟩ := course_closing.mp course
  rw [requests_append, List.mem_append, not_or]
  constructor
  · exact fun mem => fresh ((asks _ _ worked).1.subset mem)
  · rcases course_close closed with ⟨a, reply, -, rfl, -⟩ | ⟨a, f, -, rfl, -⟩ | ⟨e, answer, -, rfl, -⟩ <;>
      simp

end AuditTrail.Server
