import AuditTrail.CommandLine.Process
import AuditTrail.Proofs.CommandLine.Commands

/-! Runs of the program, one after the other, in a directory that is empty at first. Each run opens a
database, does at most one command on it and is gone; what the runs before it have left is all that it
finds. -/
namespace AuditTrail

open CommandLine

namespace CommandLine

/-! Reports of runs that have failed -/

/-- Whether a run prints nothing if it fails. -/
def Report.Quiet (r : Report) : Prop := r.exitCode ≠ 0 → r.output = ""

theorem Report.quiet_success (j : Json) : (Report.success j).Quiet := by
  intro failed
  contradiction

theorem Report.quiet_failure (lines : List String) : (Report.failure lines).Quiet := fun _ => rfl

theorem Report.quiet_ofUsage (e : UsageError) : (Report.ofUsage e).Quiet := by
  cases e with
  | helpWanted =>
    intro failed
    contradiction
  | _ => exact fun _ => rfl

theorem quiet_reportOf (result : Except Error Json) : (reportOf result).Quiet := by
  cases result with
  | ok j => exact Report.quiet_success j
  | error e => exact Report.quiet_failure _

theorem quiet_of_plan {env : Environment} {args : List String} {r : Report}
    (failed : plan env args = .error r) : r.Quiet := by
  unfold plan at failed
  cases understood : Invocation.read env args with
  | error e =>
    rw [understood] at failed
    rw [← Except.error.inj failed]
    exact Report.quiet_ofUsage e
  | ok i =>
    simp only [understood, Except.mapError, bind, Except.bind] at failed
    split at failed
    · rw [← Except.error.inj failed]
      exact Report.quiet_failure _
    · cases configured : i.storeConfig env with
      | error e =>
        simp only [configured] at failed
        rw [← Except.error.inj failed]
        exact Report.quiet_failure _
      | ok config =>
        simp only [configured] at failed
        split at failed
        · rw [← Except.error.inj failed]
          exact Report.quiet_failure _
        · contradiction

theorem Plan.quiet_runServer {σ : Type} (p : Plan) (birth : Birth) (peer : Server.Peer σ) (s : σ) :
    (p.runServer birth peer s).Quiet := by
  unfold Plan.runServer
  split
  · exact Report.quiet_failure _
  · exact quiet_reportOf _

theorem Plan.quiet_runEmbedded (p : Plan) (birth : Birth) (reachable : Bool)
    (file : Option Embedded.Database) : (p.runEmbedded birth reachable file).1.Quiet := by
  unfold Plan.runEmbedded
  split
  · exact Report.quiet_failure _
  · exact quiet_reportOf _

/-- A command on a database that opens leaves one that opens, with the rows to which it comes. -/
theorem Plan.runEmbedded_of_opens (p : Plan) (birth : Birth) {db : Embedded.Database} (opens : db.Opens) :
    ∃ after, p.runEmbedded birth true (some db)
        = (reportOf ((db.content.obey birth p.command).map (·.1)), some after) ∧
      after.Migrated (db.content.settle (db.content.obey birth p.command)) := by
  obtain ⟨s, opened, serves, version⟩ := opens.openStore p.config.embedded
  obtain ⟨t, served, ran⟩ := Embedded.command_settles birth p.command s serves
  have kept := Embedded.command_spares birth p.command s
  rw [ran] at kept
  obtain ⟨after, file, migrated⟩ := served.migrated (kept.trans version)
  refine ⟨after, ?_, migrated⟩
  simp only [Plan.runEmbedded, opened, ran, file]

end CommandLine

/-- A run of the program: its environment and its arguments, and what a project is given that it may
create. -/
structure Run where
  env : Environment
  birth : Birth
  args : List String

/-- The file in the directory on which a run works, and the command that it runs there. -/
def Run.goal? (r : Run) : Option (String × Command) :=
  match plan r.env r.args with
  | .ok p =>
    if p.config.kind = .embedded ∧ p.config.embedded.path ≠ memoryPath then
      (Directory.fileName? p.config.embedded.path).map (·, p.command)
    else none
  | .error _ => none

namespace Directory

variable {dir : Directory} {r : Run} {name other : String} {cmd : Command}

/-- What a run in a directory reports. -/
def report (dir : Directory) (r : Run) : Report := (dir.run r.env r.birth r.args).1

/-- The directory after a run. -/
def after (dir : Directory) (r : Run) : Directory := (dir.run r.env r.birth r.args).2

/-- The directory after several runs. -/
def afterAll (dir : Directory) (rs : List Run) : Directory := rs.foldl after dir

/-- Several runs, one after the other, each with its report. -/
def transcript : Directory → List Run → List (Run × Report)
  | _, [] => []
  | dir, r :: rs => (r, dir.report r) :: transcript (dir.after r) rs

/-- The rows in a file. -/
def content (dir : Directory) (name : String) : Embedded.Content := (dir.database name).content

/-- The projects in a file, as they are read. -/
def projects (dir : Directory) (name : String) : Except Embedded.Fault (List Project) :=
  (dir.content name).projects.mapM Embedded.Reader.project

/-! Files -/

theorem lookup_filter_ne (apart : other ≠ name) :
    (dir.filter (·.1 ≠ name)).lookup other = dir.lookup other := by
  induction dir with
  | nil => rfl
  | cons e rest ih =>
    obtain ⟨key, db⟩ := e
    by_cases own : key = name
    · rw [List.filter_cons_of_neg (by simpa using own), ih, List.lookup_cons,
        beq_false_of_ne (own ▸ apart)]
    · rw [List.filter_cons_of_pos (by simpa using own), List.lookup_cons, List.lookup_cons, ih]

theorem database_put (dir : Directory) (name other : String) (db : Embedded.Database) :
    (dir.put name db).database other = if other = name then db else dir.database other := by
  unfold database put
  rw [List.lookup_cons]
  by_cases own : other = name
  · rw [if_pos own, own, beq_self_eq_true]
    rfl
  · rw [if_neg own, beq_false_of_ne own, lookup_filter_ne own]

/-! One run -/

theorem quiet_runEmbedded (p : Plan) (birth : Birth) (dir : Directory) :
    (dir.runEmbedded p birth).1.Quiet := by
  unfold runEmbedded
  dsimp only
  split
  · exact p.quiet_runEmbedded birth _ _
  · split
    · exact p.quiet_runEmbedded birth _ _
    · next file path =>
      have quiet := p.quiet_runEmbedded birth true (some (dir.database file))
      split
      · next ran => rwa [ran] at quiet
      · next ran => rwa [ran] at quiet

theorem quiet_report (dir : Directory) (r : Run) : (dir.report r).Quiet := by
  unfold report run
  split
  · next failed => exact quiet_of_plan failed
  · split
    · exact quiet_runEmbedded _ r.birth dir
    · exact Plan.quiet_runServer _ r.birth _ ()

/-- A run on a file whose database opens leaves one that opens, with the rows to which its command comes,
and no other file is touched. -/
theorem run_of_goal (goal : r.goal? = some (name, cmd)) (opens : (dir.database name).Opens) :
    ∃ db, dir.report r = reportOf (((dir.content name).obey r.birth cmd).map (·.1)) ∧
      dir.after r = dir.put name db ∧
      db.Migrated ((dir.content name).settle ((dir.content name).obey r.birth cmd)) := by
  unfold Run.goal? at goal
  split at goal
  · next p planned =>
    split at goal
    · next embedded =>
      obtain ⟨file, path, same⟩ := Option.map_eq_some_iff.mp goal
      obtain ⟨rfl, rfl⟩ := Prod.mk.inj same
      obtain ⟨db, ran, migrated⟩ := p.runEmbedded_of_opens r.birth opens
      have whole : dir.run r.env r.birth r.args
          = (reportOf (((dir.content file).obey r.birth p.command).map (·.1)), dir.put file db) := by
        simp only [run, planned, embedded.1, runEmbedded, if_neg embedded.2, path, ran]
        rfl
      refine ⟨db, ?_, ?_, migrated⟩
      · rw [report, whole]
      · rw [after, whole]
    · contradiction
  · contradiction

/-- A run leaves all files alone but the one on which it works. -/
theorem database_after_other (dir : Directory) (elsewhere : ∀ cmd, r.goal? ≠ some (name, cmd)) :
    (dir.after r).database name = dir.database name := by
  unfold Run.goal? at elsewhere
  unfold after run
  split at elsewhere
  · next p planned =>
    simp only [planned]
    split
    · next embedded =>
      unfold runEmbedded
      dsimp only
      split
      · rfl
      · next file =>
        split
        · rfl
        · next found path =>
          have apart : name ≠ found := by
            rintro rfl
            refine elsewhere p.command ?_
            rw [if_pos ⟨embedded, file⟩, path]
            rfl
          split
          · rw [database_put, if_neg apart]
          · rfl
    · rfl
  · next failed => rw [failed]

theorem content_of_migrated (dir : Directory) {db : Embedded.Database} {c : Embedded.Content}
    (migrated : db.Migrated c) :
    (dir.put name db).content name = c ∧ ((dir.put name db).database name).Opens := by
  have own : (dir.put name db).database name = db := by rw [database_put, if_pos rfl]
  rw [content, own]
  exact ⟨migrated.content, .inr (migrated.content.symm ▸ migrated)⟩

/-- A run that fails leaves the rows of every file as they were. -/
theorem content_after_failed (opens : (dir.database name).Opens) (failed : (dir.report r).exitCode ≠ 0) :
    (dir.after r).content name = dir.content name := by
  cases goal : r.goal? with
  | none => rw [content, dir.database_after_other (by simp [goal]), content]
  | some found =>
    obtain ⟨file, cmd⟩ := found
    by_cases own : file = name
    · subst own
      obtain ⟨db, reported, left, migrated⟩ := run_of_goal goal opens
      rw [left, (dir.content_of_migrated migrated).1]
      cases obeyed : (dir.content file).obey r.birth cmd with
      | error e => rfl
      | ok p =>
        rw [reported, obeyed] at failed
        contradiction
    · rw [content, dir.database_after_other (by simp [goal, own]), content]

end Directory

/-! What runs have printed -/

/-- Whether a run, with its report, has written a project in a file. -/
def Run.wrote (name : String) (id : Id) (e : Run × Report) : Bool :=
  e.2.exitCode = 0 && match e.1.goal? with
    | some (file, cmd) => file = name && cmd.writes e.1.birth id
    | none => false

/-- What the last of several runs that has written a project printed. -/
def lastPrinted (name : String) (id : Id) (past : List (Run × Report)) : Option String :=
  (past.reverse.find? (Run.wrote name id)).map (·.2.output)

theorem lastPrinted_append (name : String) (id : Id) (past : List (Run × Report)) (e : Run × Report) :
    lastPrinted name id (past ++ [e])
      = if Run.wrote name id e then some e.2.output else lastPrinted name id past := by
  rw [lastPrinted, List.reverse_append, List.reverse_singleton, List.singleton_append, List.find?_cons]
  cases Run.wrote name id e <;> rfl

namespace Directory

/-- A file whose database opens and holds some projects with names of 3 to 64 characters and nothing
else, each of them as the last run that has written it printed it. -/
structure Keeps (dir : Directory) (past : List (Run × Report)) (name : String) (ps : List Project) :
    Prop where
  opens : (dir.database name).Opens
  lists : (dir.content name).Lists ps
  named : ∀ p ∈ ps, p.Named
  distinct : (ps.map (·.id)).Nodup
  printed : ∀ {id : Id} {p : Project}, ps.find? (·.id = id) = some p →
    lastPrinted name id past = some (Report.success (Document.project p)).output

theorem keeps_empty (name : String) : Keeps [] [] name [] where
  opens := .inl rfl
  lists := .empty
  named := by simp
  distinct := .nil
  printed := by simp

variable {dir : Directory} {past : List (Run × Report)} {name : String} {ps : List Project} {r : Run}

/-- A run that writes no project of a file leaves it as it is. -/
theorem Keeps.unwritten (keeps : dir.Keeps past name ps) {next : Directory} {e : Run × Report}
    (opens : (next.database name).Opens) (same : next.content name = dir.content name)
    (none : ∀ id, Run.wrote name id e = false) : next.Keeps (past ++ [e]) name ps where
  opens := opens
  lists := same ▸ keeps.lists
  named := keeps.named
  distinct := keeps.distinct
  printed found := by
    rw [lastPrinted_append, none]
    exact keeps.printed found

/-- A run that is granted a command on a file has printed what it has written there. -/
theorem Keeps.written (keeps : dir.Keeps past name ps) {next : Directory} {cmd : Command} {j : Json}
    {qs : List Project} (goal : r.goal? = some (name, cmd)) (opens : (next.database name).Opens)
    (lists : (next.content name).Lists qs) (effect : cmd.Effect r.birth ps j qs) :
    next.Keeps (past ++ [(r, Report.success j)]) name qs where
  opens := opens
  lists := lists
  named := effect.named keeps.named
  distinct := effect.distinct keeps.distinct
  printed := by
    intro id q found
    have wrote : Run.wrote name id (r, Report.success j) = cmd.writes r.birth id := by
      simp [Run.wrote, goal, Report.success]
    rw [lastPrinted_append, wrote]
    cases own : cmd.writes r.birth id with
    | true =>
      obtain ⟨p, stored, rfl⟩ := effect.find?_own own
      rw [if_pos rfl, Option.some.inj (stored.symm.trans found)]
    | false =>
      rw [effect.find?_other own] at found
      exact keeps.printed found

/-- One run more. -/
theorem Keeps.after (keeps : dir.Keeps past name ps) (born : r.birth.time.Ordinary) :
    ∃ qs, (dir.after r).Keeps (past ++ [(r, dir.report r)]) name qs ∧
      ∀ p ∈ ps, ∃ q ∈ qs, q.id = p.id ∧ q.createTime = p.createTime := by
  have stays : ∀ p ∈ ps, ∃ q ∈ ps, q.id = p.id ∧ q.createTime = p.createTime :=
    fun p mem => ⟨p, mem, rfl, rfl⟩
  by_cases here : ∃ cmd, r.goal? = some (name, cmd)
  · obtain ⟨cmd, goal⟩ := here
    obtain ⟨db, reported, left, migrated⟩ := run_of_goal goal keeps.opens
    rw [left, reported]
    cases obeyed : (dir.content name).obey r.birth cmd with
    | error e =>
      rw [obeyed] at migrated
      obtain ⟨content, opens⟩ := dir.content_of_migrated migrated
      exact ⟨ps, keeps.unwritten opens content fun _ => rfl, stays⟩
    | ok found =>
      obtain ⟨j, d⟩ := found
      rw [obeyed] at migrated
      obtain ⟨content, opens⟩ := dir.content_of_migrated migrated
      obtain ⟨qs, lists, effect⟩ := keeps.lists.obey born obeyed
      exact ⟨qs, keeps.written goal opens (content.symm ▸ lists) effect, effect.keeps⟩
  · rw [not_exists] at here
    have same := dir.database_after_other here
    refine ⟨ps, keeps.unwritten (same ▸ keeps.opens) (congrArg _ same) fun id => ?_, stays⟩
    unfold Run.wrote
    cases goal : r.goal? with
    | none => exact Bool.and_false _
    | some found =>
      obtain ⟨file, cmd⟩ := found
      have apart : file ≠ name := by
        rintro rfl
        exact here cmd goal
      simp [apart]

/-- Any runs more. -/
theorem Keeps.afterAll (keeps : dir.Keeps past name ps) {rs : List Run}
    (clock : ∀ r ∈ rs, r.birth.time.Ordinary) :
    ∃ qs, (dir.afterAll rs).Keeps (past ++ dir.transcript rs) name qs ∧
      ∀ p ∈ ps, ∃ q ∈ qs, q.id = p.id ∧ q.createTime = p.createTime := by
  induction rs generalizing dir past ps with
  | nil =>
    refine ⟨ps, ?_, fun p mem => ⟨p, mem, rfl, rfl⟩⟩
    rw [transcript, List.append_nil]
    exact keeps
  | cons r rs ih =>
    obtain ⟨born, clock⟩ := List.forall_mem_cons.mp clock
    obtain ⟨qs, next, stays⟩ := keeps.after born
    obtain ⟨xs, last, stays'⟩ := ih next clock
    rw [List.append_assoc] at last
    refine ⟨xs, last, fun p mem => ?_⟩
    obtain ⟨q, mem, id, time⟩ := stays p mem
    obtain ⟨x, mem, id', time'⟩ := stays' q mem
    exact ⟨x, mem, id'.trans id, time'.trans time⟩

/-- What a command shows of a project is what was printed of it last. -/
theorem Keeps.report_get (keeps : dir.Keeps past name ps) {id : Id}
    (goal : r.goal? = some (name, .getProject id)) (stored : ∃ p ∈ ps, p.id = id) :
    ∃ text, lastPrinted name id past = some text ∧ dir.report r = ⟨0, text, ""⟩ := by
  obtain ⟨p, mem, own⟩ := stored
  obtain ⟨q, found⟩ : ∃ q, ps.find? (·.id = id) = some q := by
    rw [← Option.isSome_iff_exists, List.find?_isSome]
    exact ⟨p, mem, decide_eq_true own⟩
  obtain ⟨db, reported, -, -⟩ := run_of_goal goal keeps.opens
  refine ⟨_, keeps.printed found, ?_⟩
  rw [reported, Embedded.Content.obey, keeps.lists.readProject found]
  rfl

end Directory

/-- After any runs in a directory that was empty, a file holds projects with names of 3 to 64 characters,
told apart by their identifiers, and no records. It can be opened again and has the same rows then. Its
projects stay, with their identifiers and creation times, whatever runs follow. A run that fails prints
nothing and changes no rows. And what is shown of a project is what the last run that has written it
printed. -/
theorem runs_keep_the_store_sound {runs : List Run} (clock : ∀ r ∈ runs, r.birth.time.Ordinary)
    (name : String) :
    let dir := Directory.afterAll [] runs
    ∃ ps, dir.projects name = .ok ps ∧
      (∀ p ∈ ps, 3 ≤ p.displayName.length ∧ p.displayName.length ≤ 64) ∧
      (ps.map (·.id)).Nodup ∧ (dir.content name).records = [] ∧ (dir.content name).changes = [] ∧
      (∀ place, ∃ s, Embedded.openStore place true (some (dir.database name)) = .ok s ∧
        s.content = dir.content name) ∧
      (∀ later : List Run, (∀ r ∈ later, r.birth.time.Ordinary) →
        ∃ qs, (dir.afterAll later).projects name = .ok qs ∧
          ∀ p ∈ ps, ∃ q ∈ qs, q.id = p.id ∧ q.createTime = p.createTime) ∧
      (∀ r : Run, (dir.report r).exitCode ≠ 0 →
        (dir.report r).output = "" ∧ (dir.after r).content name = dir.content name) ∧
      ∀ (r : Run) (id : Id), r.goal? = some (name, .getProject id) → (∃ p ∈ ps, p.id = id) →
        ∃ text, lastPrinted name id (Directory.transcript [] runs) = some text ∧
          dir.report r = ⟨0, text, ""⟩ := by
  intro dir
  obtain ⟨ps, keeps, -⟩ := (Directory.keeps_empty name).afterAll clock
  refine ⟨ps, keeps.lists.read, keeps.named, keeps.distinct, keeps.lists.records, keeps.lists.changes,
    ?_, ?_, ?_, ?_⟩
  · intro place
    obtain ⟨s, opened, serves, -⟩ := keeps.opens.openStore place
    exact ⟨s, opened, serves.content⟩
  · intro later clock
    obtain ⟨qs, next, stays⟩ := keeps.afterAll clock
    exact ⟨qs, next.lists.read, stays⟩
  · intro r failed
    exact ⟨dir.quiet_report r failed, Directory.content_after_failed keeps.opens failed⟩
  · intro r id goal stored
    exact keeps.report_get goal stored

/-- A project that is created and then renamed, by a path that is written in another way. -/
theorem runs_keep_the_store_sound_renamed :
    let create : Run :=
      ⟨[("AUDITUM_SQLITE_PATH", "a.db")], ⟨default, default⟩, ["projects", "create", "Audit"]⟩
    let rename : Run := ⟨[], ⟨default, default⟩,
      ["--sqlite-path=./a.db", "projects", "update", (default : Id).text, "--display-name", "Trail"]⟩
    let look : Run := ⟨[], ⟨default, default⟩,
      ["--sqlite-path", "a.db", "projects", "get", (default : Id).text]⟩
    (∀ r ∈ [create, rename], r.birth.time.Ordinary) ∧
      ∃ text, lastPrinted "a.db" default (Directory.transcript [] [create, rename]) = some text ∧
        (Directory.afterAll [] [create, rename]).report look = ⟨0, text, ""⟩ := by
  intro create rename look
  have clock : ∀ r ∈ [create, rename], r.birth.time.Ordinary := by decide
  obtain ⟨ps, read, -, -, -, -, -, -, -, shown⟩ := runs_keep_the_store_sound clock "a.db"
  have stored : (Directory.afterAll [] [create, rename]).projects "a.db"
      = .ok [⟨default, default, "Trail", .unset, .unset⟩] := by decide +kernel
  have goal : look.goal? = some ("a.db", .getProject default) := by decide +kernel
  cases Except.ok.inj (stored.symm.trans read)
  exact ⟨clock, shown look default goal ⟨_, List.mem_singleton_self _, rfl⟩⟩

end AuditTrail
