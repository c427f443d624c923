import AuditTrail.CommandLine.Run
import AuditTrail.Proofs.Embedded.Opening
import AuditTrail.Proofs.Embedded.Representation
import AuditTrail.Proofs.Embedded.Update

/-! What commands do to the projects of a store that has no records. A command is refused, or it answers
with a document; it adds a project, changes one, or changes nothing. -/
namespace AuditTrail

namespace Embedded

open Work

/-- What a command comes to on rows: a document with the rows afterwards, or an error. -/
def Content.obey (c : Content) (birth : Birth) : Command → Except Error (Json × Content)
  | .migrate => .ok (.object [
      ("backend", .string StoreKind.embedded.name),
      ("capabilities", .array []),
      ("schema", .string "up to date")], c)
  | .createProject displayName updateRecords deleteRecords => do
    checkDisplayName displayName
    let p : Project := ⟨birth.id, birth.time, displayName, updateRecords, deleteRecords⟩
    (c.createProject p).map (Document.project p, ·)
  | .getProject id => (c.readProject id).map fun p => (Document.project p, c)
  | .listProjects page => do
    let limit := Page.limit page.size
    let cursor ← ProjectCursor.decode page.token
    (c.listProjects limit cursor).map fun projects =>
      (Document.page "projects" (projects.map Document.project)
        (ProjectCursor.nextPage projects limit).encode, c)
  | .updateProject id u => do
    u.displayName.forM checkDisplayName
    (c.updateProject id u).map fun (p, d) => (Document.project p, d)
  | .getRecord project id =>
    (c.getRecord project id).map fun r => (Document.record Document.shownBytes r, c)
  | .listRecords project filter page => do
    let limit := Page.limit page.size
    let cursor ← RecordCursor.decode page.token
    (c.listRecords project filter limit cursor).map fun records =>
      (Document.page "records" (records.map (Document.record Document.shownBytes))
        (RecordCursor.nextPage records limit).encode, c)

variable {c d : Content} {α : Type}

theorem reads_demand (r : Except Error α) : Reads (Command.demand r) c r := by
  cases r with
  | ok a => exact .pure a
  | error e => exact .throw e

theorem quiet_demand (r : Except Error α) : Quiet (Command.demand r : Work α) := by
  cases r with
  | ok a => exact .pure a
  | error e => exact .throw e

theorem reads_checkHealth : Reads checkHealth c (.ok ()) := by
  intro s serves
  have found : s.unreachable? = none := by simp [Session.unreachable?, serves.reachable]
  refine ⟨s, serves, ?_⟩
  rw [checkHealth, run_get_bind, found]
  rfl

theorem reads_checkName (name : Option String) :
    Reads (Command.checkName name) c (name.forM checkDisplayName) := by
  cases name with
  | none => exact .pure ()
  | some s => exact reads_demand _

theorem quiet_checkName (name : Option String) : Quiet (Command.checkName name : Work Unit) := by
  cases name with
  | none => exact .pure ()
  | some s => exact quiet_demand _

/-- A command comes in a session to what it comes to on the rows. -/
theorem command_settles (birth : Birth) (cmd : Command) :
    Settles (cmd.run store birth) c (c.obey birth cmd) := by
  cases cmd with
  | migrate =>
    refine reads_checkHealth.settles_ok ?_
    exact (Reads.pure _).whole
  | createProject name updates deletes =>
    exact (reads_demand _).settles fun _ _ => (createProject_settles _).answers fun _ => _
  | getProject id => exact (getProject_settles id).answers Document.project
  | listProjects page =>
    exact (reads_demand _).settles fun cursor _ => (listProjects_settles _ cursor).answers _
  | updateProject id u =>
    exact (reads_checkName _).settles fun _ _ => (updateProject_settles id u).map Document.project
  | getRecord project id => exact (getRecord_settles project id).answers _
  | listRecords project filter page =>
    exact (reads_demand _).settles fun cursor _ => (listRecords_settles project filter _ cursor).answers _

/-- No command touches the version, and most of them write nothing at all. -/
theorem command_spares (birth : Birth) (cmd : Command) : Spares (cmd.run store birth) := by
  cases cmd with
  | migrate => exact (quiet_checkHealth.bind fun _ => .pure _).spares
  | createProject name updates deletes =>
    refine (quiet_demand _).spares.bind fun _ => (spares_createProject _).bind fun _ => ?_
    exact (Quiet.pure _).spares
  | getProject id => exact ((quiet_getProject id).bind fun _ => .pure _).spares
  | listProjects page =>
    refine ((quiet_demand _).bind fun cursor => ?_).spares
    exact (quiet_listProjects _ cursor).bind fun _ => .pure _
  | updateProject id u =>
    refine (quiet_checkName _).spares.bind fun _ => (spares_updateProject id u).bind fun _ => ?_
    exact (Quiet.pure _).spares
  | getRecord project id => exact ((quiet_getRecord project id).bind fun _ => .pure _).spares
  | listRecords project filter page =>
    refine ((quiet_demand _).bind fun cursor => ?_).spares
    exact (quiet_listRecords project filter _ cursor).bind fun _ => .pure _

/-! Rows that hold projects and nothing else -/

theorem mapM_project {rows : List Row} {ps : List Project} (shown : List.Forall₂ Row.ShowsProject rows ps) :
    rows.mapM Reader.project = .ok ps := by
  induction shown with
  | nil => rfl
  | cons first _ ih =>
    rw [List.mapM_cons, Reader.project_of_keeps first.kept first.created, ih]
    rfl

/-- Rows that hold some projects, created in the years 0 to 9999, and no records. -/
structure Content.Lists (c : Content) (ps : List Project) : Prop where
  projects : List.Forall₂ Row.ShowsProject c.projects ps
  records : c.records = []
  changes : c.changes = []

/-- What an update of a project makes of several. -/
def updated (id : Id) (u : ProjectUpdate) (ps : List Project) : List Project :=
  ps.map fun p => if p.id = id then u.apply p else p

namespace Content.Lists

variable {ps : List Project} {p q : Project} {id : Id} {u : ProjectUpdate}

theorem empty : Content.empty.Lists [] := ⟨.nil, rfl, rfl⟩

/-- All projects can be read. -/
theorem read (lists : c.Lists ps) : c.projects.mapM Reader.project = .ok ps :=
  mapM_project lists.projects

theorem find_project (lists : c.Lists ps) (id : Id) :
    (c.projects.find? (Row.isProject id) = none ∧ ps.find? (·.id = id) = none) ∨
      ∃ row p, c.projects.find? (Row.isProject id) = some row ∧ ps.find? (·.id = id) = some p ∧
        row.ShowsProject p := by
  rcases find?_forall₂ lists.projects (p := Row.isProject id) (q := (·.id = id))
    fun shows => Content.isProject_eq shows.kept id with none | ⟨row, p, found, found', -, shows⟩
  · exact .inl none
  · exact .inr ⟨row, p, found, found', shows⟩

theorem readProject (lists : c.Lists ps) (found : ps.find? (·.id = id) = some p) :
    c.readProject id = .ok p := by
  rcases lists.find_project id with ⟨-, none⟩ | ⟨row, q, stored, found', shows⟩
  · rw [none] at found
    contradiction
  · cases found.symm.trans found'
    simp only [Content.readProject, stored, Reader.project_of_keeps shows.kept shows.created]
    rfl

theorem of_readProject (lists : c.Lists ps) (done : c.readProject id = .ok p) :
    ps.find? (·.id = id) = some p := by
  rcases lists.find_project id with ⟨none, -⟩ | ⟨row, q, stored, found, shows⟩
  · rw [Content.readProject, none] at done
    contradiction
  · rw [lists.readProject found] at done
    rw [found, Except.ok.inj done]

theorem createProject (lists : c.Lists ps) (created : p.createTime.Ordinary)
    (done : c.createProject p = .ok d) :
    ps.find? (·.id = p.id) = none ∧ d.Lists (ps ++ [p]) := by
  unfold Content.createProject at done
  split at done
  · contradiction
  · next absent =>
    cases done
    constructor
    · rcases lists.find_project p.id with ⟨-, none⟩ | ⟨row, q, found, -, -⟩
      · exact none
      · exact absurd (Content.hasProject_iff.mpr ⟨row, found⟩) absent
    · have added : Row.ShowsProject (Content.projectRow p (c.lastNumber + 1)) p :=
        ⟨Row.keeps_projectRow p _, created⟩
      exact ⟨List.rel_append lists.projects (.cons added .nil), lists.records, lists.changes⟩

theorem updateProject (lists : c.Lists ps) (done : c.updateProject id u = .ok (q, d)) :
    ∃ p, ps.find? (·.id = id) = some p ∧ q = u.apply p ∧ d.Lists (updated id u ps) := by
  obtain ⟨-, rfl, row, found, read⟩ := Content.updateProject_eq_ok.mp done
  rcases lists.find_project id with ⟨none, -⟩ | ⟨row', p, found', listed, shows⟩
  · rw [none] at found
    contradiction
  · cases found.symm.trans found'
    rw [Reader.project_of_keeps (Row.keeps_updateProject u shows.kept) shows.created] at read
    refine ⟨p, listed, (Except.ok.inj read).symm, ?_, lists.records, lists.changes⟩
    exact Content.forall₂_assignProject lists.projects (fun shows => shows.kept) fun shows =>
      ⟨Row.keeps_updateProject u shows.kept, shows.created⟩

end Content.Lists

end Embedded

/-! Commands on projects -/

/-- Whether a command writes a project. -/
def Command.writes (birth : Birth) (id : Id) : Command → Bool
  | .createProject _ _ _ => birth.id = id
  | .updateProject i _ => i = id
  | _ => false

/-- What a command that is granted does to projects, and the document with which it answers. -/
inductive Command.Effect (birth : Birth) (ps : List Project) : Command → Json → List Project → Prop
  | created {name : String} {updates deletes : Flag} (fits : checkDisplayName name = .ok ())
      (absent : ps.find? (·.id = birth.id) = none) :
      Effect birth ps (.createProject name updates deletes)
        (Document.project ⟨birth.id, birth.time, name, updates, deletes⟩)
        (ps ++ [⟨birth.id, birth.time, name, updates, deletes⟩])
  | updated {id : Id} {u : ProjectUpdate} {p : Project}
      (fits : ∀ name ∈ u.displayName, checkDisplayName name = .ok ())
      (found : ps.find? (·.id = id) = some p) :
      Effect birth ps (.updateProject id u) (Document.project (u.apply p)) (Embedded.updated id u ps)
  | shown {id : Id} {p : Project} (found : ps.find? (·.id = id) = some p) :
      Effect birth ps (.getProject id) (Document.project p) ps
  | reads {cmd : Command} {j : Json} (harmless : ∀ id, cmd.writes birth id = false)
      (other : ∀ id, cmd ≠ .getProject id) : Effect birth ps cmd j ps

theorem Embedded.Content.Lists.obey {c d : Content} {ps : List Project} {birth : Birth} {cmd : Command}
    {j : Json} (lists : c.Lists ps) (born : birth.time.Ordinary)
    (done : c.obey birth cmd = .ok (j, d)) : ∃ qs, d.Lists qs ∧ cmd.Effect birth ps j qs := by
  cases cmd with
  | createProject name updates deletes =>
    obtain ⟨_, fits, created⟩ := bind_eq_ok.mp done
    obtain ⟨e, created, same⟩ := map_eq_ok created
    cases same
    obtain ⟨absent, lists⟩ := lists.createProject born created
    exact ⟨_, lists, .created fits absent⟩
  | updateProject id u =>
    obtain ⟨_, fits, changed⟩ := bind_eq_ok.mp done
    obtain ⟨⟨q, e⟩, changed, same⟩ := map_eq_ok changed
    cases same
    obtain ⟨p, found, rfl, lists⟩ := lists.updateProject changed
    refine ⟨_, lists, .updated (fun name some => ?_) found⟩
    rw [Option.mem_def.mp some] at fits
    exact fits
  | getProject id =>
    obtain ⟨p, read, same⟩ := map_eq_ok done
    cases same
    exact ⟨ps, lists, .shown (lists.of_readProject read)⟩
  | migrate =>
    cases done
    exact ⟨ps, lists, .reads (fun _ => rfl) nofun⟩
  | listProjects page =>
    obtain ⟨cursor, -, listed⟩ := bind_eq_ok.mp done
    obtain ⟨projects, -, same⟩ := map_eq_ok listed
    cases same
    exact ⟨ps, lists, .reads (fun _ => rfl) nofun⟩
  | getRecord project id =>
    obtain ⟨r, -, same⟩ := map_eq_ok done
    cases same
    exact ⟨ps, lists, .reads (fun _ => rfl) nofun⟩
  | listRecords project filter page =>
    obtain ⟨cursor, -, listed⟩ := bind_eq_ok.mp done
    obtain ⟨records, -, same⟩ := map_eq_ok listed
    cases same
    exact ⟨ps, lists, .reads (fun _ => rfl) nofun⟩

/-- A name of 3 to 64 characters. -/
def Project.Named (p : Project) : Prop := 3 ≤ p.displayName.length ∧ p.displayName.length ≤ 64

theorem Check.holds_of_demand {holds : Bool} {v : Violation} {u : Unit}
    (passed : demand holds v = .ok u) : holds = true := by
  unfold demand at passed
  split at passed
  · assumption
  · contradiction

theorem Check.of_field {name : String} {check : Check} {u : Unit} (passed : field name check = .ok u) :
    check = .ok () := by
  cases check with
  | ok u => rfl
  | error v => contradiction

theorem length_of_checkDisplayName {name : String} (fits : checkDisplayName name = .ok ()) :
    3 ≤ name.length ∧ name.length ≤ 64 := by
  obtain ⟨_, -, rest⟩ := bind_eq_ok.mp (Check.of_field fits)
  obtain ⟨_, enough, few⟩ := bind_eq_ok.mp rest
  exact ⟨of_decide_eq_true (Check.holds_of_demand enough), of_decide_eq_true (Check.holds_of_demand few)⟩

theorem ProjectUpdate.named_apply {u : ProjectUpdate} {p : Project} (named : p.Named)
    (fits : ∀ name ∈ u.displayName, checkDisplayName name = .ok ()) : (u.apply p).Named := by
  cases selected : u.displayName with
  | none =>
    unfold Project.Named ProjectUpdate.apply
    rw [selected]
    exact named
  | some name =>
    unfold Project.Named ProjectUpdate.apply
    rw [selected]
    exact length_of_checkDisplayName (fits name selected)

namespace Command.Effect

variable {birth : Birth} {ps qs : List Project} {cmd : Command} {j : Json} {id : Id}

/-- Names are checked by all commands that write them. -/
theorem named (effect : cmd.Effect birth ps j qs) (before : ∀ p ∈ ps, p.Named) : ∀ q ∈ qs, q.Named := by
  cases effect with
  | created fits absent =>
    refine List.forall_mem_append.mpr ⟨before, List.forall_mem_singleton.mpr ?_⟩
    exact length_of_checkDisplayName fits
  | updated fits found =>
    intro q mem
    obtain ⟨p, stored, rfl⟩ := List.mem_map.mp mem
    split
    · exact ProjectUpdate.named_apply (before p stored) fits
    · exact before p stored
  | shown found => exact before
  | reads harmless other => exact before

/-- No command drops a project or changes what tells it. -/
theorem keeps (effect : cmd.Effect birth ps j qs) :
    ∀ p ∈ ps, ∃ q ∈ qs, q.id = p.id ∧ q.createTime = p.createTime := by
  intro p stored
  cases effect with
  | created fits absent => exact ⟨p, List.mem_append_left _ stored, rfl, rfl⟩
  | updated fits found =>
    refine ⟨_, List.mem_map_of_mem stored, ?_⟩
    split <;> exact ⟨rfl, rfl⟩
  | shown found => exact ⟨p, stored, rfl, rfl⟩
  | reads harmless other => exact ⟨p, stored, rfl, rfl⟩

/-- No two projects share an identifier. -/
theorem distinct (effect : cmd.Effect birth ps j qs) (before : (ps.map (·.id)).Nodup) :
    (qs.map (·.id)).Nodup := by
  cases effect with
  | created fits absent =>
    rw [List.map_append, List.map_singleton, List.nodup_append]
    refine ⟨before, List.nodup_singleton _, ?_⟩
    intro i mem k new same
    obtain ⟨p, stored, rfl⟩ := List.mem_map.mp mem
    rw [List.mem_singleton.mp new] at same
    exact absurd (decide_eq_true same) (List.find?_eq_none.mp absent p stored)
  | @updated i u p fits found =>
    have ids : (Embedded.updated i u ps).map (·.id) = ps.map (·.id) := by
      rw [Embedded.updated, List.map_map]
      refine List.map_congr_left fun p _ => ?_
      simp only [Function.comp_apply]
      split <;> rfl
    rwa [ids]
  | shown found => exact before
  | reads harmless other => exact before

theorem find?_updated (id i : Id) (u : ProjectUpdate) (ps : List Project) :
    (Embedded.updated i u ps).find? (·.id = id)
      = (ps.find? (·.id = id)).map fun p => if p.id = i then u.apply p else p := by
  rw [Embedded.updated, List.find?_map]
  congr 2
  funext p
  simp only [Function.comp_apply]
  split <;> rfl

/-- A command that writes a project answers with the document of it. -/
theorem find?_own (effect : cmd.Effect birth ps j qs) (own : cmd.writes birth id = true) :
    ∃ p, qs.find? (·.id = id) = some p ∧ j = Document.project p := by
  cases effect with
  | @created name updates deletes fits absent =>
    obtain rfl : birth.id = id := of_decide_eq_true own
    refine ⟨_, ?_, rfl⟩
    rw [List.find?_append, absent, Option.none_or]
    exact List.find?_cons_of_pos (decide_eq_true rfl)
  | @updated i u p fits found =>
    obtain rfl : i = id := of_decide_eq_true own
    refine ⟨_, ?_, rfl⟩
    have named : p.id = i := by simpa using List.find?_some found
    rw [find?_updated, found, Option.map_some, if_pos named]
  | shown found => contradiction
  | reads harmless other =>
    rw [harmless id] at own
    contradiction

/-- A project that a command does not write stays as it is. -/
theorem find?_other (effect : cmd.Effect birth ps j qs) (other : cmd.writes birth id = false) :
    qs.find? (·.id = id) = ps.find? (·.id = id) := by
  cases effect with
  | @created name updates deletes fits absent =>
    have apart : birth.id ≠ id := of_decide_eq_false other
    rw [List.find?_append, List.find?_cons_of_neg (by simpa using apart), List.find?_nil, Option.or_none]
  | @updated i u p fits found =>
    have apart : i ≠ id := of_decide_eq_false other
    rw [find?_updated]
    cases stored : ps.find? (·.id = id) with
    | none => rfl
    | some q =>
      have named : q.id = id := by simpa using List.find?_some stored
      rw [Option.map_some, if_neg (named ▸ Ne.symm apart)]
  | shown found => rfl
  | reads harmless other => rfl

end Command.Effect

end AuditTrail
