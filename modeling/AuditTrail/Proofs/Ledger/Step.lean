import AuditTrail.Proofs.Ledger
import AuditTrail.Proofs.Result
import Mathlib.Data.List.Nodup

/-! All that a request can do to a ledger, and what every ledger keeps: identifiers stay unique, records
keep their projects, and plain values stay plain. -/
namespace AuditTrail

theorem Record.Plain.created {r : Record} (plain : r.Plain) : r.createTime.Plain :=
  plain.values (.createTime, .instant r.createTime) (by simp [Record.entries])

theorem Ledger.Plain.created {l : Ledger} (plain : l.Plain) {p : Project} (mem : p ∈ l.projects) :
    p.createTime.Plain :=
  plain.projects p mem (.createTime, .instant p.createTime) (by simp [Project.entries])

theorem Record.Plain.operated {r : Record} (plain : r.Plain) : r.operation.time.Plain :=
  plain.values (.operationTime, .instant r.operation.time)
    (by simp [Record.entries, Operation.entries])

theorem Record.Plain.stamped {r : Record} (plain : r.Plain) {t : Instant} (created : t.Plain) :
    Record.Plain { r with createTime := t } where
  values := by
    have values := plain.values
    simp only [PlainEntries, Record.entries, List.cons_append, List.forall_mem_cons] at values ⊢
    obtain ⟨i, project, -, rest⟩ := values
    exact ⟨i, project, created, rest⟩
  changes := plain.changes

theorem Record.Plain.apply {r : Record} (plain : r.Plain) {u : RecordUpdate} (update : u.Plain) :
    (u.apply r).Plain where
  values := by
    intro e mem
    rcases RecordUpdate.mem_entries_apply mem with written | ⟨-, stays⟩
    · exact update.values e written
    · exact plain.values e stays
  changes := by
    cases selected : u.resource with
    | none => simpa [RecordUpdate.apply, selected] using plain.changes
    | some resource => simpa [RecordUpdate.apply, selected] using update.changes resource selected

theorem RecordFilter.plain_times {f : RecordFilter}
    (plain : ∀ c ∈ Selection.filtering f, c.value.Plain) :
    (∀ t ∈ f.timeFrom, t.Plain) ∧ ∀ t ∈ f.timeTo, t.Plain := by
  constructor
  · intro t bound
    exact plain (.atLeast .operationTime (.instant t)) (by
      simp [Selection.filtering, Selection.optional, Option.mem_def.mp bound])
  · intro t bound
    exact plain (.below .operationTime (.instant t)) (by
      simp [Selection.filtering, Selection.optional, Option.mem_def.mp bound])

namespace Ledger

/-- A request that has been granted, and the ledger after it. -/
inductive Step (l : Ledger) : Request → Ledger → Prop
  | createProject {p : Project} (absent : l.projects.any (·.id = p.id) = false) :
      Step l (.createProject p) { l with projects := l.projects ++ [p] }
  | updateProject {id : Id} {u : ProjectUpdate} : Step l (.updateProject id u) (l.setProject id u)
  | dropProject {id : Id} : Step l (.dropProject id) (l.removeProject id)
  | createRecords {first : Record} {rest : List Record} {p : Project}
      (together : ∀ r ∈ first :: rest, r.project = first.project)
      (present : l.project first.project = .ok p)
      (distinct : ((l.records ++ first :: rest).map Record.key).Nodup) :
      Step l (.createRecords (first :: rest)) (l.addRecords first.createTime (first :: rest))
  | updateRecord {project id : Id} {u : RecordUpdate} :
      Step l (.updateRecord project id u) (l.setRecord project id u)
  | deleteRecord {project id : Id} : Step l (.deleteRecord project id) (l.removeRecord project id)

variable {l m : Ledger} {r : Request}

theorem project_eq_ok {id : Id} {p : Project} (ok : l.project id = .ok p) :
    p ∈ l.projects ∧ p.id = id := by
  unfold project at ok
  split at ok
  · next q found =>
    cases ok
    exact ⟨List.mem_of_find?_eq_some found, by simpa using List.find?_some found⟩
  · contradiction

/-- A record is found, or it is not there. -/
theorem find_record (l : Ledger) (project id : Id) :
    (l.records.find? (·.key = (project, id)) = none ∧
      l.record project id = .error (.recordNotFound project id)) ∨
      ∃ r, l.records.find? (·.key = (project, id)) = some r ∧ l.record project id = .ok r ∧
        r ∈ l.records ∧ r.project = project ∧ r.id = id := by
  unfold record
  cases found : l.records.find? (·.key = (project, id)) with
  | none => exact .inl ⟨rfl, rfl⟩
  | some r =>
    have own : r.key = (project, id) := by simpa using List.find?_some found
    exact .inr ⟨r, rfl, rfl, List.mem_of_find?_eq_some found, Prod.mk.inj own⟩

theorem mem_listProjects {limit : Nat} {cursor : ProjectCursor} {p : Project}
    (mem : p ∈ l.listProjects limit cursor) : p ∈ l.projects :=
  (List.mem_filter.mp ((inOrder_perm _).subset (List.mem_of_mem_take mem))).1

section Pages

variable {project : Id} {f : RecordFilter} {limit : Nat} {cursor : RecordCursor}

theorem mem_page {x : Record} (mem : x ∈ l.page project f limit cursor) :
    x ∈ l.records ∧ x.project = project := by
  obtain ⟨stored, chosen⟩ := List.mem_filter.mp ((inOrder_perm _).subset (List.mem_of_mem_take mem))
  exact ⟨stored, of_decide_eq_true (Bool.and_eq_true_iff.mp chosen).1⟩

/-- No identifier occurs twice on a page, which is of one project. -/
theorem page_nodup (distinct : (l.records.map Record.key).Nodup) :
    ((l.page project f limit cursor).map (·.id)).Nodup := by
  have perm : (inOrder Record.Precedes (l.records.filter fun r =>
      r.project = project && (f.admits r && cursor.admits r))).Perm _ := inOrder_perm _
  have whole := (perm.map Record.key).nodup_iff.mpr
    (distinct.sublist (List.filter_sublist.map Record.key))
  have keys : ((l.page project f limit cursor).map Record.key).Nodup :=
    whole.sublist ((List.take_sublist limit _).map Record.key)
  have pairs : (l.page project f limit cursor).map Record.key
      = ((l.page project f limit cursor).map (·.id)).map (project, ·) := by
    rw [List.map_map]
    refine List.map_congr_left fun r mem => ?_
    rw [Record.key, (mem_page mem).2]
    rfl
  rw [pairs] at keys
  exact keys.of_map

end Pages

theorem step_of_createRecords {records : List Record} (ok : l.createRecords records = .ok m) :
    Step l (.createRecords records) m := by
  cases records with
  | nil => contradiction
  | cons first rest =>
    rw [createRecords] at ok
    split at ok
    · contradiction
    · next together =>
      obtain ⟨p, present, ok⟩ := bind_eq_ok.mp ok
      split at ok
      · next distinct =>
        cases ok
        exact .createRecords (by simpa using together) present distinct
      · contradiction

theorem step_of_handle {a : Answer} (ok : l.handle r = .ok (a, m)) : m = l ∨ Step l r m := by
  cases r with
  | createProject p =>
    obtain ⟨n, ok, same⟩ := map_eq_ok ok
    cases same
    unfold createProject at ok
    split at ok
    · contradiction
    · next absent =>
      cases ok
      exact .inr (.createProject (Bool.not_eq_true _ ▸ absent))
  | updateProject id u =>
    obtain ⟨⟨p, n⟩, ok, same⟩ := map_eq_ok ok
    cases same
    unfold updateProject at ok
    split at ok
    · contradiction
    · obtain ⟨q, -, same⟩ := map_eq_ok ok
      cases same
      exact .inr .updateProject
  | dropProject id =>
    obtain ⟨n, ok, same⟩ := map_eq_ok ok
    obtain ⟨q, -, same'⟩ := map_eq_ok ok
    cases same
    cases same'
    exact .inr .dropProject
  | createRecords records =>
    obtain ⟨n, ok, same⟩ := map_eq_ok ok
    cases same
    exact .inr (step_of_createRecords ok)
  | updateRecord project id u =>
    obtain ⟨⟨x, n⟩, ok, same⟩ := map_eq_ok ok
    cases same
    unfold updateRecord at ok
    split at ok
    · contradiction
    · obtain ⟨p, -, ok⟩ := bind_eq_ok.mp ok
      split at ok
      · contradiction
      · obtain ⟨q, -, same⟩ := map_eq_ok ok
        cases same
        exact .inr .updateRecord
  | deleteRecord project id =>
    obtain ⟨n, ok, same⟩ := map_eq_ok ok
    cases same
    obtain ⟨p, -, ok⟩ := bind_eq_ok.mp ok
    split at ok
    · contradiction
    · cases ok
      exact .inr .deleteRecord
  | getProject | getRecord | listRecords =>
    obtain ⟨x, -, same⟩ := map_eq_ok ok
    cases same
    exact .inl rfl
  | listProjects =>
    cases ok
    exact .inl rfl

/-- A request leaves a ledger alone, or it is granted and makes a step. -/
theorem after_cases (l : Ledger) (r : Request) : l.after r = l ∨ Step l r (l.after r) := by
  unfold after
  cases handled : l.handle r with
  | error e => exact .inl rfl
  | ok p => exact step_of_handle handled

/-! What a step preserves -/

@[simp] theorem key_apply (u : RecordUpdate) (r : Record) : (u.apply r).key = r.key := rfl

theorem ids_setProject (l : Ledger) (id : Id) (u : ProjectUpdate) :
    (l.setProject id u).projects.map (·.id) = l.projects.map (·.id) := by
  rw [setProject, List.map_map]
  refine List.map_congr_left fun p _ => ?_
  simp only [Function.comp_apply]
  split <;> rfl

theorem keys_setRecord (l : Ledger) (project id : Id) (u : RecordUpdate) :
    (l.setRecord project id u).records.map Record.key = l.records.map Record.key := by
  rw [setRecord, List.map_map]
  refine List.map_congr_left fun r _ => ?_
  simp only [Function.comp_apply]
  split <;> rfl

/-- A record that has been changed is found as it is then. -/
theorem record_setRecord (l : Ledger) (project id : Id) (u : RecordUpdate) :
    (l.setRecord project id u).record project id = (l.record project id).map u.apply := by
  have same : (fun r : Record => decide (r.key = (project, id))) ∘
      (fun r => if r.key = (project, id) then u.apply r else r)
      = fun r => decide (r.key = (project, id)) := by
    funext r
    simp only [Function.comp_apply]
    split <;> rfl
  unfold record setRecord
  rw [List.find?_map, same]
  cases found : l.records.find? (·.key = (project, id)) with
  | none => rfl
  | some r =>
    have own : r.key = (project, id) := by simpa using List.find?_some found
    simp only [Option.map_some, own, if_true]
    rfl

theorem keys_addRecords (l : Ledger) (t : Instant) (batch : List Record) :
    (l.addRecords t batch).records.map Record.key = (l.records ++ batch).map Record.key := by
  rw [addRecords, List.map_append, List.map_append, List.map_map]
  rfl

/-- Whether the records of a ledger have projects is seen from the identifiers alone. -/
theorem owned_congr (owned : ∀ r ∈ l.records, ∃ p ∈ l.projects, p.id = r.project)
    (projects : ∀ i ∈ l.projects.map (·.id), i ∈ m.projects.map (·.id))
    (records : ∀ k ∈ m.records.map Record.key, k ∈ l.records.map Record.key) :
    ∀ r ∈ m.records, ∃ p ∈ m.projects, p.id = r.project := by
  intro r mem
  obtain ⟨x, stored, same⟩ := List.mem_map.mp (records _ (List.mem_map_of_mem mem))
  obtain ⟨p, present, own⟩ := owned x stored
  obtain ⟨q, there, id⟩ := List.mem_map.mp (projects _ (List.mem_map_of_mem present))
  exact ⟨q, there, id.trans (own.trans (Prod.mk.inj same).1)⟩

theorem Sound.step (sound : l.Sound) (step : Step l r m) : m.Sound := by
  cases step with
  | createProject absent =>
    refine ⟨?_, sound.records, owned_congr sound.owned (by simp +contextual) fun _ => id⟩
    rw [List.map_append, List.nodup_append]
    refine ⟨sound.projects, List.pairwise_singleton _ _, ?_⟩
    simpa [List.any_eq_false] using absent
  | updateProject =>
    refine ⟨?_, sound.records, owned_congr sound.owned (fun i => ?_) fun _ => id⟩
    · rw [ids_setProject]
      exact sound.projects
    · rw [ids_setProject]
      exact id
  | dropProject =>
    refine ⟨sound.projects.sublist (List.filter_sublist.map _),
      sound.records.sublist (List.filter_sublist.map _), fun r mem => ?_⟩
    obtain ⟨mem, other⟩ := List.mem_filter.mp mem
    obtain ⟨p, present, own⟩ := sound.owned r mem
    exact ⟨p, List.mem_filter.mpr ⟨present, by rwa [own]⟩, own⟩
  | createRecords together present distinct =>
    refine ⟨sound.projects, by rwa [keys_addRecords], fun r mem => ?_⟩
    rcases List.mem_append.mp mem with old | new
    · exact sound.owned r old
    · obtain ⟨x, batched, rfl⟩ := List.mem_map.mp new
      obtain ⟨there, named⟩ := project_eq_ok present
      exact ⟨_, there, named.trans (together x batched).symm⟩
  | updateRecord =>
    refine ⟨sound.projects, by rw [keys_setRecord]; exact sound.records, ?_⟩
    refine owned_congr sound.owned (fun _ => id) fun k => ?_
    rw [keys_setRecord]
    exact id
  | deleteRecord =>
    exact ⟨sound.projects, sound.records.sublist (List.filter_sublist.map _),
      fun r mem => sound.owned r (List.mem_filter.mp mem).1⟩

theorem Sound.after (sound : l.Sound) (r : Request) : (l.after r).Sound := by
  rcases after_cases l r with same | step
  · rwa [same]
  · exact sound.step step

theorem sound_empty : empty.Sound := ⟨.nil, .nil, by simp [empty]⟩

theorem Plain.step (plain : l.Plain) (request : r.Plain) (step : Step l r m) : m.Plain := by
  cases step with
  | createProject absent =>
    refine ⟨fun p mem => ?_, plain.records⟩
    rcases List.mem_append.mp mem with old | new
    · exact plain.projects p old
    · rw [List.mem_singleton.mp new]
      exact request
  | updateProject =>
    refine ⟨fun p mem => ?_, plain.records⟩
    obtain ⟨q, stored, rfl⟩ := List.mem_map.mp mem
    split
    · intro e mem
      rcases ProjectUpdate.mem_entries_apply mem with written | ⟨-, stays⟩
      · exact request e written
      · exact plain.projects q stored e stays
    · exact plain.projects q stored
  | dropProject =>
    exact ⟨fun p mem => plain.projects p (List.mem_filter.mp mem).1,
      fun r mem => plain.records r (List.mem_filter.mp mem).1⟩
  | createRecords together present distinct =>
    refine ⟨plain.projects, fun r mem => ?_⟩
    rcases List.mem_append.mp mem with old | new
    · exact plain.records r old
    · obtain ⟨x, batched, rfl⟩ := List.mem_map.mp new
      exact (request x batched).stamped (request _ List.mem_cons_self).created
  | updateRecord =>
    refine ⟨plain.projects, fun r mem => ?_⟩
    obtain ⟨x, stored, rfl⟩ := List.mem_map.mp mem
    split
    · exact (plain.records x stored).apply request
    · exact plain.records x stored
  | deleteRecord =>
    exact ⟨plain.projects, fun r mem => plain.records r (List.mem_filter.mp mem).1⟩

theorem Plain.after (plain : l.Plain) (request : r.Plain) : (l.after r).Plain := by
  rcases after_cases l r with same | step
  · rwa [same]
  · exact plain.step request step

theorem plain_empty : empty.Plain := ⟨by simp [empty], by simp [empty]⟩

/-! How a ledger comes about -/

theorem after_createProject {p : Project} (absent : l.projects.any (·.id = p.id) = false) :
    l.after (.createProject p) = { l with projects := l.projects ++ [p] } := by
  simp [after, handle, createProject, absent, Except.map]

theorem after_createRecord {x : Record} {p : Project} (present : l.project x.project = .ok p)
    (distinct : ((l.records ++ [x]).map Record.key).Nodup) :
    l.after (.createRecords [x]) = { l with records := l.records ++ [x] } := by
  have created : l.createRecords [x] = .ok { l with records := l.records ++ [x] } := by
    simp only [createRecords, present, bind, Except.bind, if_pos distinct]
    simp [addRecords]
  simp [after, handle, created, Except.map]

/-- Requests that create the projects and records of a ledger, one by one. -/
def creation (l : Ledger) : List Request :=
  l.projects.map .createProject ++ l.records.map fun r => .createRecords [r]

theorem after_projects {projects before : List Project}
    (distinct : ((before ++ projects).map (·.id)).Nodup) :
    (projects.map Request.createProject).foldl after ⟨before, []⟩ = ⟨before ++ projects, []⟩ := by
  induction projects generalizing before with
  | nil => simp
  | cons p rest ih =>
    have absent : before.any (·.id = p.id) = false := by
      rw [List.map_append, List.nodup_append] at distinct
      rw [List.any_eq_false]
      intro q mem same
      exact distinct.2.2 _ (List.mem_map_of_mem mem) _ List.mem_cons_self (of_decide_eq_true same)
    rw [List.append_cons] at distinct
    rw [List.map_cons, List.foldl_cons, after_createProject absent, ih distinct, ← List.append_cons]

theorem after_records {projects : List Project} {records before : List Record}
    (owned : ∀ r ∈ records, ∃ p ∈ projects, p.id = r.project)
    (distinct : ((before ++ records).map Record.key).Nodup) :
    (records.map fun r => Request.createRecords [r]).foldl after ⟨projects, before⟩
      = ⟨projects, before ++ records⟩ := by
  induction records generalizing before with
  | nil => simp
  | cons x rest ih =>
    obtain ⟨⟨p, there, own⟩, owned⟩ := List.forall_mem_cons.mp owned
    rw [List.append_cons] at distinct
    obtain ⟨q, present⟩ : ∃ q, Ledger.project ⟨projects, before⟩ x.project = .ok q := by
      unfold project
      cases found : projects.find? (·.id = x.project) with
      | none => exact absurd (decide_eq_true own) (List.find?_eq_none.mp found p there)
      | some q => exact ⟨q, rfl⟩
    have fresh : ((before ++ [x]).map Record.key).Nodup := by
      rw [List.map_append] at distinct
      exact distinct.sublist (List.sublist_append_left _ _)
    rw [List.map_cons, List.foldl_cons, after_createRecord present fresh, ih owned distinct,
      ← List.append_cons]

/-- Every ledger that keeps the rules comes of requests. -/
theorem after_creation (sound : l.Sound) : l.creation.foldl after empty = l := by
  rw [creation, List.foldl_append, empty, after_projects (by simpa using sound.projects),
    after_records (by simpa using sound.owned) (by simpa using sound.records)]
  rfl

theorem plain_creation (plain : l.Plain) : ∀ r ∈ l.creation, r.Plain := by
  intro r mem
  rcases List.mem_append.mp mem with project | record
  · obtain ⟨p, present, rfl⟩ := List.mem_map.mp project
    exact plain.projects p present
  · obtain ⟨x, stored, rfl⟩ := List.mem_map.mp record
    exact List.forall_mem_singleton.mpr (plain.records x stored)

end Ledger

end AuditTrail
