import AuditTrail.Proofs.Embedded.Refinement

/-! Sessions that requests can lead to from an empty database that has just been opened. What such a
session answers and stores is what the rows decide, whatever its place, its settings and its
connection, and whether or not references are enforced. -/
namespace AuditTrail.Embedded

/-- The rows that a session's database holds; a missing table counts as empty. -/
def Session.content (s : Session) : Content :=
  match s.file with
  | some db => ⟨db.projects.getD [], db.records.getD [], db.changes.getD [], db.lastNumber⟩
  | none => .empty

/-- What a client gets for a request. -/
def Session.reply (s : Session) (r : Request) : Except Error Answer := ((store.handle r).run s).1

/-- The session after a request. -/
def Session.after (s : Session) (r : Request) : Session := ((store.handle r).run s).2

/-- The session after several requests. -/
def Session.afterAll (s : Session) (rs : List Request) : Session := rs.foldl Session.after s

/-- What a client gets for several requests, one after the other. -/
def Session.replies : Session → List Request → List (Except Error Answer)
  | _, [] => []
  | s, r :: rs => s.reply r :: (s.after r).replies rs

/-- The sessions that requests lead to from an empty database, whatever the engine enforces. -/
inductive Reachable : Session → Prop
  | opened {place : EmbeddedPlace} {s : Session} (enforced : Bool)
      (opened : openStore place true (some .empty) = .ok s) :
      Reachable { s with enforced := enforced }
  | answered {s : Session} (r : Request) (reached : Reachable s) : Reachable (s.after r)

section
variable {s t : Session} {c : Content}

theorem Session.Serves.content (serves : s.Serves c) : s.content = c := by
  obtain ⟨db, file, holds⟩ := serves.holds
  rw [Session.content, file]
  simp only [holds.projects, holds.records, holds.changes, holds.lastNumber, Option.getD_some]

theorem Session.Serves.reply (serves : s.Serves c) (r : Request) : s.reply r = c.reply r := by
  obtain ⟨t, _, ran⟩ := handle_settles r s serves
  rw [Session.reply, ran]
  rfl

theorem Session.Serves.after (serves : s.Serves c) (r : Request) :
    (s.after r).Serves (c.after r) := by
  obtain ⟨t, served, ran⟩ := handle_settles r s serves
  rw [Session.after, ran]
  exact served

theorem Session.Serves.afterAll (serves : s.Serves c) (rs : List Request) :
    (s.afterAll rs).Serves (rs.foldl Content.after c) := by
  induction rs generalizing s c with
  | nil => exact serves
  | cons r rs ih => exact ih (serves.after r)

/-- Sessions that serve the same rows give the same replies to any requests. -/
theorem Session.Serves.replies (left : s.Serves c) (right : t.Serves c) (rs : List Request) :
    s.replies rs = t.replies rs := by
  induction rs generalizing s t c with
  | nil => rfl
  | cons r rs ih =>
    simp only [Session.replies, left.reply, right.reply, ih (left.after r) (right.after r)]

/-- A place where a database without tables has just been opened. -/
def Session.opened (place : EmbeddedPlace) : Session :=
  let db := (Database.create .version .empty).createAll.setVersion schemaVersion
  { Session.fresh place true (some db) with known := some db.tables }

theorem openStore_empty (place : EmbeddedPlace) :
    openStore place true (some .empty) = .ok (.opened place) := by
  have started : Session.start place true (some .empty)
      = .ok (Session.fresh place true (some .empty)) := by
    simp [Session.start, Session.fresh, Session.unreachable?]
  simp only [openStore, started, bind, Except.bind]
  rfl

/-- An empty database that has just been opened has empty tables. -/
theorem serves_of_openStore {place : EmbeddedPlace}
    (opened : openStore place true (some .empty) = .ok s) : s.Serves .empty := by
  rw [openStore_empty] at opened
  cases opened
  exact ⟨rfl, rfl, _, rfl, rfl, rfl, rfl, rfl⟩

theorem Session.Serves.enforcing (serves : s.Serves c) (enforced : Bool) :
    ({ s with enforced := enforced } : Session).Serves c :=
  ⟨serves.reachable, serves.free, serves.holds⟩

theorem Reachable.serves (reached : Reachable s) : s.Serves s.content := by
  have served : ∃ c, s.Serves c := by
    induction reached with
    | opened enforced opened => exact ⟨_, (serves_of_openStore opened).enforcing enforced⟩
    | answered r _ ih =>
      obtain ⟨c, serves⟩ := ih
      exact ⟨_, serves.after r⟩
  obtain ⟨c, serves⟩ := served
  rwa [serves.content]

/-- What holds of empty tables and survives every request holds of all reachable rows. -/
theorem Reachable.invariant {P : Content → Prop} (start : P .empty)
    (preserves : ∀ c r, P c → P (c.after r)) (reached : Reachable s) : P s.content := by
  induction reached with
  | opened enforced opened =>
    rw [((serves_of_openStore opened).enforcing enforced).content]
    exact start
  | answered r reached ih =>
    rw [(reached.serves.after r).content]
    exact preserves _ r ih

theorem Reachable.afterAll (reached : Reachable s) (rs : List Request) :
    Reachable (s.afterAll rs) := by
  induction rs generalizing s with
  | nil => exact reached
  | cons r rs ih => exact ih (.answered r reached)
end

end AuditTrail.Embedded
