import AuditTrail.Proofs.Embedded.Atomicity

/-! Opening a database again. The version that opening leaves in a database is what tells the next opening
that the tables are there, and no work of the store touches it. So a database that has once been opened
is opened as it is, whatever has been done to it in between. -/
namespace AuditTrail.Embedded

/-- The version table that a session's database has. -/
def Session.version (s : Session) : Option (List Row) := s.file.bind Database.version

namespace Database

variable {db : Database} {enforced : Bool} {st : Statement} {outcome : Outcome}

theorem version_put {t : Table} (other : t ≠ .version) (rows : Option (List Row)) :
    (db.put t rows).version = db.version := by
  cases t <;> first | rfl | contradiction

theorem version_cascade (db : Database) (gone : List Row) :
    (db.cascade .changes gone).version = db.version := by
  unfold cascade
  split
  · exact version_put (by decide) _
  · rfl

/-- No statement about another table changes the version. -/
theorem version_run (other : st.table ≠ .version) (done : db.run enforced st = .ok outcome) :
    outcome.database.version = db.version := by
  cases st with
  | select s =>
    obtain ⟨rows, -, rfl⟩ := map_eq_ok done
    rfl
  | insert t entries returning =>
    simp only [Database.run, Database.insert, bind_eq_ok] at done
    obtain ⟨rows, -, parents, -, done⟩ := done
    split at done
    · contradiction
    · split at done
      · contradiction
      · split at done
        · rw [← Except.ok.inj done]
          exact version_put other _
        · rw [← Except.ok.inj done]
          exact version_put other _
  | update t entries conditions returning =>
    simp only [Database.run, Database.update, bind_eq_ok] at done
    obtain ⟨rows, -, done⟩ := done
    rw [← Except.ok.inj done]
    exact version_put other _
  | delete t conditions =>
    simp only [Database.run, Database.delete, bind_eq_ok] at done
    obtain ⟨rows, -, parents, -, done⟩ := done
    split at done
    · contradiction
    · rw [← Except.ok.inj done]
      have kept : (db.put t (some (rows.filter (!meets conditions ·)))).version = db.version :=
        version_put other _
      split
      · exact (version_cascade _ _).trans kept
      · exact kept

end Database

namespace Work

variable {α β : Type} {w : Work α} {f : α → Work β} {st : Statement}

/-- Work that leaves the version in the database alone, whatever it comes to. -/
def Spares (w : Work α) : Prop := ∀ s, (w.run s).2.version = s.version

/-- The version is read off the file. -/
theorem Quiet.spares (quiet : Quiet w) : Spares w := fun s => by
  rw [Session.version, quiet s, Session.version]

theorem Spares.bind (first : Spares w) (next : ∀ a, Spares (f a)) : Spares (w >>= f) := by
  intro s
  rw [run_bind, ← first s]
  cases w.run s with
  | mk result t =>
    cases result with
    | error e => rfl
    | ok a => exact next a t

/-- What a transaction that fails does is undone. -/
theorem Spares.transaction (mode : Mode) (doing : String) (inside : Spares w) :
    Spares (transaction mode doing w) := by
  intro s
  simp only [Work.run, Work.transaction, ExceptT.run, ExceptT.mk, StateT.run]
  split
  · rfl
  · next begun =>
    have kept := (inside _).trans (congrArg (·.bind Database.version) (begin?_file begun))
    simp only [Work.run, ExceptT.run, StateT.run] at kept
    split
    · rfl
    · next ran =>
      rw [ran] at kept
      split
      · rfl
      · exact kept

theorem spares_step (doing : String) (other : st.table ≠ .version) : Spares (step doing st) := by
  intro s
  rw [step, run_get_bind]
  cases stepped : Session.step st s with
  | error fault => exact congrArg (·.bind Database.version) (refresh_file s)
  | ok found =>
    obtain ⟨outcome, t⟩ := found
    obtain ⟨db, read, rest⟩ := bind_eq_ok.mp stepped
    obtain ⟨made, ran, same⟩ := bind_eq_ok.mp rest
    cases same
    change outcome.database.version = _
    rw [Session.version, file_of_readable read, Database.version_run other ran]
    rfl

theorem spares_perform (doing : String) (other : st.table ≠ .version) : Spares (perform doing st) :=
  (quiet_prepare doing st).spares.bind fun _ => spares_step doing other

end Work

/-! The operations of a store that write projects -/

section

open Work

theorem spares_createProject (p : Project) : Spares (createProject p) := by
  refine quiet_connect.spares.bind fun _ => .transaction _ _ ?_
  exact (quiet_note _).spares.bind fun _ =>
    (spares_perform _ (by nofun)).bind fun _ => (Quiet.pure ()).spares

theorem spares_updateProject (id : Id) (u : ProjectUpdate) : Spares (updateProject id u) := by
  unfold updateProject
  split
  · exact (Quiet.throw _).spares
  · refine (quiet_note _).spares.bind fun _ => quiet_connect.spares.bind fun _ => .transaction _ _ ?_
    refine (spares_perform _ (by nofun)).bind fun outcome => Quiet.spares ?_
    refine (quiet_readFirst _ _ outcome).bind fun found => ?_
    cases found with
    | some p => exact .pure p
    | none => exact .throw _

end

/-! Opening -/

/-- A database with the tables of a store, which the next opening will not create again. -/
structure Database.Migrated (db : Database) (c : Content) : Prop where
  holds : db.Holds c
  version : db.version = some [[(.version, .integer Embedded.schemaVersion)]]

variable {db : Database} {c : Content} {α : Type}

namespace Work

theorem run_adapt (f : Error → Error) (w : Work α) (s : Session) :
    Work.run (ExceptT.adapt f w) s = ((w.run s).1.mapError f, (w.run s).2) := rfl

theorem run_alter {s : Session} {change : Database → Database} (doing : String)
    (read : s.readable = .ok db) (same : change db = db) :
    (alter doing change).run s = (.ok (), { s with known := some db.tables }) := by
  rw [alter, run_get_bind]
  simp only [read, same, if_true]
  rfl

theorem schemaVersion_of_migrated (migrated : db.Migrated c) :
    db.schemaVersion = Embedded.schemaVersion := by
  rw [Database.schemaVersion, migrated.version]
  rfl

/-- Tables that are there are not created again. -/
theorem run_createTables {s : Session} (read : s.readable = .ok db) (migrated : db.Migrated c) :
    createTables.run s = (.ok (), { s with known := some db.tables }) := by
  have same : db.create .version = db := by
    rw [Database.create, Database.rows?, migrated.version]
    rfl
  have again : ({ s with known := some db.tables } : Session).readable = .ok db := read
  rw [createTables, run_bind_ok (run_alter _ read same), run_get_bind]
  simp only [again, Except.map, Except.toOption, Option.getD_some, schemaVersion_of_migrated migrated]
  rfl

theorem run_migrate {s : Session} (reachable : s.reachable = true) (read : s.readable = .ok db)
    (migrated : db.Migrated c) : migrate.run s = (.ok (), { s with known := some db.tables }) := by
  have connected : connect.run s = (.ok (), s) := by
    have found : s.unreachable? = none := by simp [Session.unreachable?, reachable]
    rw [connect, run_get_bind, found]
    rfl
  have ensured : ensureTables.run s = (.ok (), { s with known := some db.tables }) :=
    (run_bind_ok connected).trans (run_createTables read migrated)
  rw [migrate, run_adapt, ensured]
  rfl

end Work

theorem openStore_migrated (migrated : db.Migrated c) (place : EmbeddedPlace) :
    openStore place true (some db)
      = .ok { Session.fresh place true (some db) with known := some db.tables } := by
  have started : Session.start place true (some db) = .ok (Session.fresh place true (some db)) := by
    simp [Session.start, Session.fresh, Session.unreachable?]
  have read : (Session.fresh place true (some db)).readable = .ok db := Work.readable_of_serves rfl rfl
  simp only [openStore, started, bind, Except.bind, Work.run_migrate rfl read migrated]
  rfl

/-- The rows of a database; a missing table counts as empty. -/
def Database.content (db : Database) : Content :=
  ⟨db.projects.getD [], db.records.getD [], db.changes.getD [], db.lastNumber⟩

/-- A database without tables, or with those that an opening has left in it. -/
def Database.Opens (db : Database) : Prop := db = .empty ∨ db.Migrated db.content

theorem Database.Migrated.content (migrated : db.Migrated c) : db.content = c := by
  have holds := migrated.holds
  rw [Database.content, holds.projects, holds.records, holds.changes, holds.lastNumber]
  rfl

theorem Session.Serves.migrated {s : Session} (serves : s.Serves c)
    (version : s.version = some [[(.version, .integer schemaVersion)]]) :
    ∃ db, s.file = some db ∧ db.Migrated c := by
  obtain ⟨db, file, holds⟩ := serves.holds
  rw [Session.version, file] at version
  exact ⟨db, file, holds, version⟩

/-- Such a database can be opened, and has its rows and the version then. -/
theorem Database.Opens.openStore (opens : db.Opens) (place : EmbeddedPlace) :
    ∃ s, openStore place true (some db) = .ok s ∧ s.Serves db.content ∧
      s.version = some [[(.version, .integer Embedded.schemaVersion)]] := by
  rcases opens with rfl | migrated
  · exact ⟨_, openStore_empty place, serves_of_openStore (openStore_empty place), rfl⟩
  · exact ⟨_, openStore_migrated migrated place, ⟨rfl, rfl, db, rfl, migrated.holds⟩, migrated.version⟩

end AuditTrail.Embedded
