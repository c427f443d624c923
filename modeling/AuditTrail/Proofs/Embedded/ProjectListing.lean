import AuditTrail.Proofs.Embedded.Listing

/-! The listing of projects. A page is the front of what comes after the cursor, and each project on
it is the one that is read alone. The creation time of a project is written once and for all, so
projects can be listed after any requests as long as those that create some give a time that can be
read. -/
namespace AuditTrail.Embedded

/-- A row that holds a project, created in the years 0 to 9999. -/
structure Row.ShowsProject (row : Row) (p : Project) : Prop where
  kept : row.Keeps p.entries
  created : p.createTime.Ordinary

theorem Row.ShowsProject.id {row : Row} {p : Project} (shows : row.ShowsProject p) :
    row.get .id = .text p.id.text :=
  shows.kept (.id, .id p.id) (by simp [Project.entries])

theorem Row.ShowsProject.isProject_iff {row : Row} {p : Project} (shows : row.ShowsProject p)
    {i : Id} : row.isProject i = true ↔ p.id = i := by
  rw [isProject, shows.id, decide_eq_true_eq, Cell.text.injEq]
  exact ⟨fun same => Id.text_injective same, fun same => same ▸ rfl⟩

/-- All projects in listing order, each as it is read alone. -/
structure Session.HoldsProjects (s : Session) (all : List Project) : Prop where
  sorted : all.Pairwise Project.Precedes
  complete : ∀ i, s.content.hasProject i = true ↔ ∃ p ∈ all, p.id = i
  read : ∀ p ∈ all, s.reply (.getProject p.id) = .ok (.project p)

namespace Content

variable {c d : Content} {r : Request} {view : Row → Project}

/-! Rows -/

theorem Valued.exists_project_view (valued : c.Valued)
    (dated : ∀ row ∈ c.projects, row.Dated [.createTime]) :
    ∃ view : Row → Project, ∀ row ∈ c.projects, row.ShowsProject (view row) := by
  have each : ∀ row ∈ c.projects, ∃ p, row.ShowsProject p := by
    intro row mem
    obtain ⟨p, kept⟩ := valued.projects row mem
    obtain ⟨t, ordinary, time⟩ := dated row mem .createTime (List.mem_singleton_self _)
    refine ⟨{ p with createTime := t }, ?_, ordinary⟩
    simp only [Row.Keeps, Project.entries, List.forall_mem_cons] at kept ⊢
    exact ⟨kept.1, time, kept.2.2⟩
  choose! view shows using each
  exact ⟨view, shows⟩

/-- The rows of all projects in listing order. -/
def listedProjects (c : Content) : List Row := arrange [⟨.id, true⟩] c.projects

section
variable (keyed : c.Keyed) (shows : ∀ row ∈ c.projects, row.ShowsProject (view row))
include shows

theorem shows_of_listed {row : Row} (mem : row ∈ c.listedProjects) :
    row ∈ c.projects ∧ row.ShowsProject (view row) := by
  have stored := (arrange_perm _ c.projects).subset mem
  exact ⟨stored, shows row stored⟩

theorem chosen_projects (limit : Nat) (cursor : ProjectCursor) :
    chosen (.projects limit cursor) c.projects
      = ((c.listedProjects.filter fun row => cursor.admits (view row)).take limit).map .ok := by
  have judged : ∀ row ∈ c.listedProjects, meets (Selection.projects limit cursor).conditions row
      = cursor.admits (view row) := by
    intro row mem
    have id := (shows_of_listed shows mem).2.id
    rcases cursor with ⟨_ | i⟩
    · rfl
    · simp [Selection.projects, meets, belowId_iff id, ProjectCursor.admits]
  have plain : (Selection.projects limit cursor).conditions.any isLabelled = false := by
    rcases cursor with ⟨_ | i⟩ <;> rfl
  have picked := filterMap_choose plain c.listedProjects
  rw [List.filter_congr judged] at picked
  rw [List.map_take, ← picked]
  rfl

/-- A page of projects is the front of those that the cursor admits. -/
theorem reply_listProjects (limit : Nat) (cursor : ProjectCursor) :
    c.reply (.listProjects limit cursor)
      = .ok (.projects (((c.listedProjects.map view).filter cursor.admits).take limit)) := by
  have rows := chosen_projects shows limit cursor
  generalize shown : (c.listedProjects.filter fun row => cursor.admits (view row)).take limit = page
    at rows
  have query : ((c.listedProjects.map view).filter cursor.admits).take limit = page.map view := by
    rw [List.filter_map, ← List.map_take, ← shown]
    rfl
  have part : page.Sublist c.listedProjects :=
    shown ▸ (List.take_sublist _ _).trans List.filter_sublist
  have read : (page.map (Except.ok (ε := Fault))).mapM (Work.readRow Reader.project)
      = .ok (page.map view) := mapM_readRow fun row mem => by
    have shown := (shows_of_listed shows (part.subset mem)).2
    exact Reader.project_of_keeps shown.kept shown.created
  simp only [reply, handle, listProjects, rows, read, query]
  rfl

theorem hasProject_iff_listed {i : Id} :
    c.hasProject i = true ↔ ∃ p ∈ c.listedProjects.map view, p.id = i := by
  refine List.any_eq_true.trans ⟨?_, ?_⟩
  · rintro ⟨row, mem, own⟩
    exact ⟨view row, List.mem_map_of_mem ((arrange_perm _ _).symm.subset mem),
      (shows row mem).isProject_iff.mp own⟩
  · rintro ⟨p, mem, rfl⟩
    obtain ⟨row, listed, rfl⟩ := List.mem_map.mp mem
    obtain ⟨stored, shown⟩ := shows_of_listed shows listed
    exact ⟨row, stored, shown.isProject_iff.mpr rfl⟩

include keyed

theorem sorted_projects : (c.listedProjects.map view).Pairwise Project.Precedes := by
  have apart := keyed.pairwise_arrange .projects [⟨.id, true⟩]
  have arranged := arrange_pairwise [⟨.id, true⟩] c.projects
  refine List.pairwise_map.mpr ((arranged.and apart).imp_of_mem fun {a b} aMem bMem pair => ?_)
  obtain ⟨later, apart⟩ := pair
  have aId := (shows_of_listed shows aMem).2.id
  have bId := (shows_of_listed shows bMem).2.id
  refine id_lt_of_not_precedes aId bId later fun same => ?_
  rw [← Bool.not_eq_true, Row.agree_iff] at apart
  exact apart fun column key => by rw [List.mem_singleton.mp key, aId, bId, same]

theorem reply_getProject_listed {p : Project} (mem : p ∈ c.listedProjects.map view) :
    c.reply (.getProject p.id) = .ok (.project p) := by
  obtain ⟨row, listed, rfl⟩ := List.mem_map.mp mem
  obtain ⟨stored, shown⟩ := shows_of_listed shows listed
  have own := shown.isProject_iff.mpr rfl
  obtain ⟨row', found⟩ := Option.isSome_iff_exists.mp (List.find?_isSome.mpr ⟨row, stored, own⟩)
  obtain rfl := keyed.eq_of_isProject (List.mem_of_find?_eq_some found) stored
    (List.find?_some found) own
  exact reply_getProject found (Reader.project_of_keeps shown.kept shown.created)
end

/-! What requests leave -/

theorem createTime_projectRow (p : Project) (number : Nat) :
    (projectRow p number).get .createTime = .text p.createTime.sortable :=
  Row.keeps_projectRow p number (.createTime, .instant p.createTime) (by simp [Project.entries])

theorem dated_projectRow {p : Project} (created : p.createTime.Ordinary) (number : Nat) :
    (projectRow p number).Dated [.createTime] :=
  List.forall_mem_singleton.mpr ⟨p.createTime, created, createTime_projectRow p number⟩

/-- The creation time in a row of a project is the one that was there before, or it has come with
the project. -/
theorem Step.createTime_of_mem (step : Step c r d) {row : Row} (mem : row ∈ d.projects) :
    (∃ old ∈ c.projects, row.get .createTime = old.get .createTime) ∨
      ∃ p, r = .createProject p ∧ row.get .createTime = .text p.createTime.sortable := by
  have made := step
  cases step with
  | @createProject p absent =>
    rcases List.mem_append.mp mem with old | new
    · exact .inl ⟨row, old, rfl⟩
    · rw [List.mem_singleton.mp new]
      exact .inr ⟨p, rfl, createTime_projectRow p _⟩
  | updateProject present =>
    obtain ⟨old, stored, rfl⟩ := List.mem_map.mp mem
    exact .inl ⟨old, stored, Row.get_assignProject _ _ (by decide)⟩
  | dropProject present => exact .inl ⟨row, (List.mem_filter.mp mem).1, rfl⟩
  | createRecords | updateRecord | deleteRecord =>
    rw [made.projects_eq fun _ => rfl] at mem
    exact .inl ⟨row, mem, rfl⟩

/-- Rows of which all can be listed as projects. -/
structure Listable (c : Content) : Prop where
  sound : c.Sound
  valued : c.Valued
  dated : ∀ row ∈ c.projects, row.Dated [.createTime]

theorem Listable.after (listable : c.Listable)
    (created : ∀ p, r = .createProject p → p.createTime.Ordinary) : (c.after r).Listable where
  sound := listable.sound.after r
  valued := listable.valued.after listable.sound r
  dated := by
    rcases after_cases c r with same | ⟨-, step⟩
    · rw [same]
      exact listable.dated
    · intro row mem
      refine List.forall_mem_singleton.mpr ?_
      rcases step.createTime_of_mem mem with ⟨old, stored, same⟩ | ⟨p, rfl, given⟩
      · obtain ⟨t, ordinary, time⟩ := listable.dated old stored .createTime
          (List.mem_singleton_self _)
        exact ⟨t, ordinary, same.trans time⟩
      · exact ⟨p.createTime, created p rfl, given⟩

end Content

/-- What the rows hold are the projects, in listing order. -/
theorem Reachable.holdsProjects {s : Session} (reached : Reachable s) {view : Row → Project}
    (shows : ∀ row ∈ s.content.projects, row.ShowsProject (view row)) :
    s.HoldsProjects (s.content.listedProjects.map view) where
  sorted := Content.sorted_projects reached.sound.keyed shows
  complete := fun _ => Content.hasProject_iff_listed shows
  read := fun p mem => by
    rw [reached.serves.reply]
    exact Content.reply_getProject_listed reached.sound.keyed shows mem

end AuditTrail.Embedded
