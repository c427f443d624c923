import AuditTrail.Proofs.Embedded.Statements

/-! What work in a session comes to, as a function of the rows alone. The session may have prepared
anything and know any tables: as long as the tables are there and nobody else holds the database,
only the rows decide. -/
namespace AuditTrail.Embedded

/-- A session that can reach its database, which nobody else holds and which has the tables of a
store with the given rows. -/
structure Session.Serves (s : Session) (c : Content) : Prop where
  reachable : s.reachable = true
  free : s.hold = .free
  holds : ∃ db, s.file = some db ∧ db.Holds c

namespace Work

variable {α β : Type} {w : Work α} {f : α → Work β} {s t : Session} {c d : Content}
  {doing : String} {st : Statement}

theorem run_bind (w : Work α) (f : α → Work β) (s : Session) :
    (w >>= f).run s = match w.run s with
      | (.ok a, t) => (f a).run t
      | (.error e, t) => (.error e, t) := by
  simp only [Work.run, ExceptT.run, bind, ExceptT.bind, ExceptT.mk, StateT.bind, StateT.run]
  rcases w s with ⟨_ | a, t⟩ <;> rfl

theorem run_get_bind (f : Session → Work β) (s : Session) : (get >>= f).run s = (f s).run s := rfl

theorem run_bind_ok {a : α} (first : w.run s = (.ok a, t)) : (w >>= f).run s = (f a).run t := by
  rw [run_bind, first]

theorem run_bind_error {e : Error} (first : w.run s = (.error e, t)) :
    (w >>= f).run s = (.error e, t) := by
  rw [run_bind, first]

/-- Work that leaves the rows alone, whatever it comes to. -/
def Reads (w : Work α) (c : Content) (result : Except Error α) : Prop :=
  ∀ s, s.Serves c → ∃ t, t.Serves c ∧ w.run s = (result, t)

/-- Work inside a transaction. What a failure leaves behind will be undone, so it is left open. -/
def Gives (w : Work α) (c : Content) (result : Except Error (α × Content)) : Prop :=
  ∀ s, s.Serves c → ∃ t d, t.Serves d ∧ w.run s = (result.map (·.1), t) ∧
    ∀ p, result = .ok p → d = p.2

/-- Work inside a transaction that answers nothing. -/
def Does (w : Work Unit) (c : Content) (result : Except Error Content) : Prop :=
  Gives w c (result.map ((), ·))

/-- A statement that succeeds with an answer. -/
def Yields (w : Work Outcome) (c : Content) (rows : List (Except Fault Row)) (n : Nat)
    (d : Content) : Prop :=
  ∀ s, s.Serves c → ∃ db t, t.Serves d ∧ w.run s = (.ok ⟨db, rows, n⟩, t)

/-- A whole operation: a failure leaves the rows as they were. -/
def Settles (w : Work α) (c : Content) (result : Except Error (α × Content)) : Prop :=
  ∀ s, s.Serves c → ∃ t, t.Serves (c.settle result) ∧ w.run s = (result.map (·.1), t)

theorem not_ok {P : α → Prop} (e : Error) : ∀ a, (.error e : Except Error α) = .ok a → P a := by
  intro a impossible
  contradiction

/-! Composition -/

theorem Reads.pure (a : α) : Reads (pure a) c (.ok a) :=
  fun s serves => ⟨s, serves, rfl⟩

theorem Reads.throw (e : Error) : Reads (throw e : Work α) c (.error e) :=
  fun s serves => ⟨s, serves, rfl⟩

theorem Reads.bind {r : Except Error α} {g : α → Except Error β} (first : Reads w c r)
    (next : ∀ a, r = .ok a → Reads (f a) c (g a)) : Reads (w >>= f) c (r >>= g) := by
  intro s serves
  obtain ⟨t, served, ran⟩ := first s serves
  cases r with
  | error e => exact ⟨t, served, run_bind_error ran⟩
  | ok a =>
    obtain ⟨u, served, ran'⟩ := next a rfl t served
    exact ⟨u, served, (run_bind_ok ran).trans ran'⟩

theorem Reads.gives {r : Except Error α} {g : α → Except Error (β × Content)} (first : Reads w c r)
    (next : ∀ a, r = .ok a → Gives (f a) c (g a)) : Gives (w >>= f) c (r >>= g) := by
  intro s serves
  obtain ⟨t, served, ran⟩ := first s serves
  cases r with
  | error e => exact ⟨t, c, served, run_bind_error ran, not_ok e⟩
  | ok a =>
    obtain ⟨u, d, served, ran', same⟩ := next a rfl t served
    exact ⟨u, d, served, (run_bind_ok ran).trans ran', same⟩

theorem Reads.settles {r : Except Error α} {g : α → Except Error (β × Content)}
    (first : Reads w c r) (next : ∀ a, r = .ok a → Settles (f a) c (g a)) :
    Settles (w >>= f) c (r >>= g) := by
  intro s serves
  obtain ⟨t, served, ran⟩ := first s serves
  cases r with
  | error e => exact ⟨t, served, run_bind_error ran⟩
  | ok a =>
    obtain ⟨u, served, ran'⟩ := next a rfl t served
    exact ⟨u, served, (run_bind_ok ran).trans ran'⟩

theorem Reads.bind_ok {a : α} {r : Except Error β} (first : Reads w c (.ok a))
    (next : Reads (f a) c r) : Reads (w >>= f) c r :=
  first.bind (g := fun _ => r) fun _ same => Except.ok.inj same ▸ next

theorem Reads.gives_ok {a : α} {r : Except Error (β × Content)} (first : Reads w c (.ok a))
    (next : Gives (f a) c r) : Gives (w >>= f) c r :=
  first.gives (g := fun _ => r) fun _ same => Except.ok.inj same ▸ next

theorem Reads.gives_error {e : Error} {f : α → Work β} (first : Reads w c (.error e)) :
    Gives (w >>= f) c (.error e) := by
  intro s serves
  obtain ⟨t, served, ran⟩ := first s serves
  exact ⟨t, c, served, run_bind_error ran, not_ok e⟩

theorem Reads.settles_ok {a : α} {r : Except Error (β × Content)} (first : Reads w c (.ok a))
    (next : Settles (f a) c r) : Settles (w >>= f) c r :=
  first.settles (g := fun _ => r) fun _ same => Except.ok.inj same ▸ next

theorem Reads.whole {r : Except Error α} (reads : Reads w c r) :
    Settles w c (r.map (·, c)) := by
  intro s serves
  obtain ⟨t, served, ran⟩ := reads s serves
  cases r <;> exact ⟨t, served, ran⟩

theorem Reads.inside {r : Except Error α} (reads : Reads w c r) : Gives w c (r.map (·, c)) := by
  intro s serves
  obtain ⟨t, served, ran⟩ := reads s serves
  refine ⟨t, c, served, ?_, ?_⟩
  · cases r <;> exact ran
  · cases r with
    | error e => exact not_ok e
    | ok a => rintro p ⟨⟩; rfl

theorem Reads.fails {e : Error} (reads : Reads w c (.error e)) : Gives w c (.error e) :=
  reads.inside

theorem Reads.does {f : α → Work Unit} {r : Except Error α} {g : α → Except Error Content}
    (first : Reads w c r) (next : ∀ a, r = .ok a → Does (f a) c (g a)) :
    Does (w >>= f) c (r >>= g) := by
  have whole := first.gives (g := fun a => (g a).map ((), ·)) next
  cases r <;> exact whole

theorem Gives.pure (a : α) : Gives (pure a) c (.ok (a, c)) := by
  intro s serves
  refine ⟨s, c, serves, rfl, ?_⟩
  rintro p ⟨⟩
  rfl

theorem Gives.bind {r : Except Error (α × Content)}
    {g : α → Content → Except Error (β × Content)} (first : Gives w c r)
    (next : ∀ a d, r = .ok (a, d) → Gives (f a) d (g a d)) :
    Gives (w >>= f) c (r >>= fun p => g p.1 p.2) := by
  intro s serves
  obtain ⟨t, d, served, ran, same⟩ := first s serves
  cases r with
  | error e => exact ⟨t, d, served, run_bind_error ran, not_ok e⟩
  | ok p =>
    have same := same p rfl
    subst same
    obtain ⟨u, e, served, ran', same'⟩ := next p.1 p.2 rfl t served
    exact ⟨u, e, served, (run_bind_ok ran).trans ran', same'⟩

theorem Does.gives {w : Work Unit} {f : Unit → Work β} {r : Except Error Content}
    {g : Content → Except Error (β × Content)} (first : Does w c r)
    (next : ∀ d, r = .ok d → Gives (f ()) d (g d)) : Gives (w >>= f) c (r >>= g) := by
  have later : ∀ a d, r.map ((), ·) = .ok (a, d) → Gives (f a) d (g d) := by
    intro a d same
    cases r with
    | error e => contradiction
    | ok e => exact next d (congrArg Except.ok (Prod.mk.inj (Except.ok.inj same)).2)
  have both := Gives.bind (g := fun _ => g) first later
  cases r <;> exact both

theorem Does.bind {w : Work Unit} {f : Unit → Work Unit} {r : Except Error Content}
    {g : Content → Except Error Content} (first : Does w c r)
    (next : ∀ d, r = .ok d → Does (f ()) d (g d)) : Does (w >>= f) c (r >>= g) := by
  have both := first.gives (f := f) (g := fun d => (g d).map ((), ·)) next
  cases r <;> exact both

theorem Gives.bind_ok {a : α} {r : Except Error (β × Content)} (first : Gives w c (.ok (a, d)))
    (next : Gives (f a) d r) : Gives (w >>= f) c r := by
  refine first.bind (g := fun _ _ => r) fun b e same => ?_
  obtain ⟨rfl, rfl⟩ := Prod.mk.inj (Except.ok.inj same)
  exact next

theorem Yields.reads {k : Outcome → Work β} {rows : List (Except Fault Row)} {n : Nat}
    {w : Work Outcome} {r : Except Error β} (first : Yields w c rows n c)
    (next : ∀ db, Reads (k ⟨db, rows, n⟩) c r) : Reads (w >>= k) c r := by
  intro s serves
  obtain ⟨db, t, served, ran⟩ := first s serves
  obtain ⟨u, served, ran'⟩ := next db t served
  exact ⟨u, served, (run_bind_ok ran).trans ran'⟩

theorem Yields.gives {k : Outcome → Work β} {rows : List (Except Fault Row)} {n : Nat}
    {w : Work Outcome} {r : Except Error (β × Content)} (first : Yields w c rows n d)
    (next : ∀ db, Gives (k ⟨db, rows, n⟩) d r) : Gives (w >>= k) c r := by
  intro s serves
  obtain ⟨db, t, served, ran⟩ := first s serves
  obtain ⟨u, e, served, ran', same⟩ := next db t served
  exact ⟨u, e, served, (run_bind_ok ran).trans ran', same⟩

theorem Settles.map {r : Except Error (α × Content)} (settles : Settles w c r) (g : α → β) :
    Settles (do let a ← w; return g a) c (r.map fun p => (g p.1, p.2)) := by
  intro s serves
  obtain ⟨t, served, ran⟩ := settles s serves
  cases r with
  | error e => exact ⟨t, served, run_bind_error ran⟩
  | ok p => exact ⟨t, served, run_bind_ok ran⟩

theorem Settles.answers {γ : Type} {x : Except Error γ} {h : γ → α × Content}
    (settles : Settles w c (x.map h)) (g : α → β) :
    Settles (do let a ← w; return g a) c (x.map fun y => (g (h y).1, (h y).2)) := by
  have mapped := settles.map g
  rwa [map_map] at mapped

/-- Inside a transaction a failure is undone, and nobody keeps a success from lasting. -/
theorem Gives.transaction {r : Except Error (α × Content)} (mode : Mode) (doing : String)
    (inside : Gives w c r) : Settles (transaction mode doing w) c r := by
  intro s serves
  obtain ⟨db, file, holds⟩ := serves.holds
  have begun : begin? mode s = .ok { s with written := false } := by
    cases mode with
    | read => rfl
    | write => simp [begin?, Session.writable, file, serves.free, Except.map]
  have ready : ({ s with written := false } : Session).Serves c :=
    ⟨serves.reachable, serves.free, db, file, holds⟩
  obtain ⟨t, d, served, ran, same⟩ := inside _ ready
  have lasting : t.canCommit = true := by simp [Session.canCommit, served.free]
  cases r with
  | error e =>
    refine ⟨rollback s t, ⟨served.reachable, served.free, db, file, holds⟩, ?_⟩
    simp only [Work.run, Work.transaction, ExceptT.run, ExceptT.mk, StateT.run, begun] at ran ⊢
    rw [ran]
    rfl
  | ok p =>
    have same := same p rfl
    subst same
    refine ⟨t, served, ?_⟩
    simp only [Work.run, Work.transaction, ExceptT.run, ExceptT.mk, StateT.run, begun] at ran ⊢
    rw [ran]
    simp [lasting, Except.map]

/-! The steps of which work is made -/

theorem reads_note (st : Statement) : Reads (note st) c (.ok ()) := by
  intro s serves
  refine ⟨if s.place.backend.logQueries then { s with log := s.log ++ [st.text .embedded] } else s,
    ?_, rfl⟩
  split
  · exact ⟨serves.reachable, serves.free, serves.holds⟩
  · exact serves

theorem reads_connect : Reads connect c (.ok ()) := by
  intro s serves
  refine ⟨s, serves, ?_⟩
  have found : s.unreachable? = none := by simp [Session.unreachable?, serves.reachable]
  rw [connect, run_get_bind, found]
  rfl

theorem readable_of_serves {db : Database} (free : s.hold = .free) (file : s.file = some db) :
    s.readable = .ok db := by
  simp [Session.readable, file, free]

theorem reads_lookUp (doing : String) {t : Table} (stored : t ≠ .version) :
    Reads (lookUp doing t) c (.ok ()) := by
  intro s serves
  obtain ⟨db, file, holds⟩ := serves.holds
  simp only [lookUp, run_get_bind]
  cases known : s.knows t with
  | true =>
    refine ⟨s, serves, ?_⟩
    simp only [Session.lookUp, known, if_true]
    rfl
  | false =>
    refine ⟨{ s with known := some db.tables }, ⟨serves.reachable, serves.free, db, file, holds⟩, ?_⟩
    simp only [Session.lookUp, known, Bool.false_eq_true, if_false,
      readable_of_serves serves.free file, holds.rows? stored, bind, Except.bind]
    rfl

theorem reads_checkDepth (doing : String) (depth : Nat) : Reads (checkDepth doing depth) c
    (if depthLimit < depth then .error (Fault.tooDeep.error doing) else .ok ()) := by
  unfold checkDepth
  split
  · exact .throw _
  · exact .pure ()

/-- A statement is prepared unless the engine refuses it, whichever of its depths is too great. -/
theorem reads_prepare (doing : String) (stored : st.table ≠ .version) :
    Reads (prepare doing st) c (Content.preparing doing st) := by
  have joined := reads_checkDepth (c := c) doing st.depth
  have whole := reads_checkDepth (c := c) doing st.fullDepth
  have below : st.depth ≤ st.fullDepth := Nat.le_add_right _ _
  unfold prepare Content.preparing
  by_cases fits : st.Fits
  · rw [if_neg (Nat.not_lt.mpr fits)] at whole
    rw [if_neg (Nat.not_lt.mpr (Nat.le_trans below fits))] at joined
    rw [if_pos fits]
    exact joined.bind_ok ((reads_lookUp doing stored).bind_ok whole)
  · rw [if_pos (Nat.not_le.mp fits)] at whole
    rw [if_neg fits]
    by_cases early : depthLimit < st.depth
    · rw [if_pos early] at joined
      refine joined.bind (g := fun _ => .error (Fault.tooDeep.error doing)) fun _ impossible => ?_
      contradiction
    · rw [if_neg early] at joined
      exact joined.bind_ok ((reads_lookUp doing stored).bind_ok whole)

theorem reads_prepare_taken (doing : String) (taken : st.Taken) :
    Reads (prepare doing st) c (.ok ()) := by
  have prepared := reads_prepare (c := c) doing taken.stored
  rwa [Content.preparing, if_pos taken.fits] at prepared

theorem reads_keepPrepared (doing : String) {t : Table} (stored : t ≠ .version) :
    Reads (keepPrepared doing t) c (.ok ()) := by
  intro s serves
  simp only [keepPrepared, run_get_bind]
  split
  · obtain ⟨u, served, ran⟩ := reads_lookUp doing stored s serves
    refine ⟨{ u with prepared := t :: u.prepared }, ?_, ?_⟩
    · exact ⟨served.reachable, served.free, served.holds⟩
    · rw [run_bind_ok ran]
      rfl
  · exact ⟨s, serves, rfl⟩

/-- A statement does in a session what it does to the tables. -/
theorem yields_step (doing : String) {rows : List (Except Fault Row)} {n : Nat}
    (effect : ∀ (db : Database) (enforced : Bool), db.Holds c →
      ∃ after, db.run enforced st = .ok ⟨after, rows, n⟩ ∧ after.Holds d) :
    Yields (step doing st) c rows n d := by
  intro s serves
  obtain ⟨db, file, holds⟩ := serves.holds
  obtain ⟨after, ran, held⟩ := effect db s.enforced holds
  obtain ⟨t, stepped, served⟩ :
      ∃ t, Session.step st s = .ok (⟨after, rows, n⟩, t) ∧ t.Serves d := by
    refine ⟨{ s with
      file := some after, known := some db.tables, written := s.written || n ≠ 0 }, ?_,
      ⟨serves.reachable, serves.free, after, rfl, held⟩⟩
    simp only [Session.step, readable_of_serves serves.free file, ran, bind, Except.bind]
  refine ⟨after, t, served, ?_⟩
  simp only [step, run_get_bind, stepped]
  rfl

theorem reads_step_error (doing : String) {fault : Fault}
    (effect : ∀ (db : Database) (enforced : Bool), db.Holds c → db.run enforced st = .error fault) :
    Reads (step doing st) c (.error (fault.error doing)) := by
  intro s serves
  obtain ⟨db, file, holds⟩ := serves.holds
  have readable := readable_of_serves serves.free file
  have stepped : Session.step st s = .error fault := by
    simp only [Session.step, readable, effect db s.enforced holds, bind, Except.bind]
  refine ⟨s.refresh, ?_, ?_⟩
  · simp only [Session.refresh, readable]
    exact ⟨serves.reachable, serves.free, db, file, holds⟩
  · simp only [step, run_get_bind, stepped]
    rfl

theorem yields_perform (doing : String) {rows : List (Except Fault Row)} {n : Nat}
    (taken : st.Taken) (effect : ∀ (db : Database) (enforced : Bool), db.Holds c →
      ∃ after, db.run enforced st = .ok ⟨after, rows, n⟩ ∧ after.Holds d) :
    Yields (perform doing st) c rows n d := by
  intro s serves
  obtain ⟨t, served, ran⟩ := reads_prepare_taken doing taken s serves
  obtain ⟨db, u, served, ran'⟩ := yields_step doing effect t served
  exact ⟨db, u, served, (run_bind_ok ran).trans ran'⟩

theorem reads_perform_error (doing : String) {fault : Fault} (taken : st.Taken)
    (effect : ∀ (db : Database) (enforced : Bool), db.Holds c → db.run enforced st = .error fault) :
    Reads (perform doing st) c (.error (fault.error doing)) :=
  (reads_prepare_taken doing taken).bind_ok (reads_step_error doing effect)

theorem yields_select (doing : String) {sel : Selection} (taken : (Statement.select sel).Taken) :
    Yields (perform doing (.select sel)) c (chosen sel (c.rows sel.table)) 0 c :=
  yields_perform doing taken fun db _ holds => ⟨db, Database.run_select holds taken.stored, holds⟩

theorem yields_step_select (doing : String) {sel : Selection} (stored : sel.table ≠ .version) :
    Yields (step doing (.select sel)) c (chosen sel (c.rows sel.table)) 0 c :=
  yields_step doing fun db _ holds => ⟨db, Database.run_select holds stored, holds⟩

theorem reads_readAll (doing : String) (read : Reader α) (outcome : Outcome) :
    Reads (readAll doing read outcome) c
      (Content.reading doing (outcome.rows.mapM (readRow read))) := by
  unfold readAll Content.reading
  cases outcome.rows.mapM (readRow read) with
  | ok l => exact .pure l
  | error fault => exact .throw _

theorem head?_answer (read : Reader α) (p : Row → Bool) (g : Row → Row) (rows : List Row) :
    ((rows.filter p).map fun row => Except.ok (ε := Fault) (g row)).head?.map (readRow read)
      = (rows.find? p).map fun row => read (g row) := by
  rw [List.head?_map, List.head?_filter, Option.map_map]
  rfl

section
variable {read : Reader α} {p : Row → Bool} {g : Row → Row} {rows : List Row} {db : Database}
  {n : Nat} {k : Option α → Work β}

/-- The first row of an answer is read, if there is one. -/
theorem reads_firstRow {row : Row} {next : α → Except Error β} (found : rows.find? p = some row)
    (rest : ∀ a, Reads (k (some a)) c (next a)) :
    Reads (readFirst doing read ⟨db, (rows.filter p).map fun row => .ok (g row), n⟩ >>= k) c
      (Content.reading doing (read (g row)) >>= next) := by
  simp only [readFirst, head?_answer, found, Option.map_some, Content.reading]
  cases read (g row) with
  | ok a => exact (Reads.pure (some a)).bind_ok (rest a)
  | error fault =>
    have failed : Reads (throw (fault.error doing) : Work (Option α)) c _ := .throw _
    refine failed.bind (g := fun _ => .error (fault.error doing)) fun _ impossible => ?_
    contradiction

theorem reads_noRow {r : Except Error β} (missing : rows.find? p = none)
    (rest : Reads (k none) c r) :
    Reads (readFirst doing read ⟨db, (rows.filter p).map fun row => .ok (g row), n⟩ >>= k) c r := by
  simp only [readFirst, head?_answer, missing, Option.map_none]
  exact (Reads.pure none).bind_ok rest
end

end Work

end AuditTrail.Embedded
