import AuditTrail.Proofs.Grouping
import AuditTrail.Proofs.Server.Conversation
import AuditTrail.Proofs.Server.Course
import AuditTrail.Proofs.Server.Effects

/-! Tables that hold a ledger, and what is read from them. The changes of all records stand in one table,
in any order; those of a record are found by its identifiers and put in order by their places. -/
namespace AuditTrail.Server

/-! The changes of records -/

section Placing

variable {project record : Id} {n : Nat} {changes : List Change} {c : Placed} {r : Record}
  {records : List Record}

theorem mem_placed (mem : c ∈ placed project record n changes) :
    c.owner = (project, record) ∧ n ≤ c.position := by
  induction changes generalizing n with
  | nil => contradiction
  | cons change rest ih =>
    rcases List.mem_cons.mp mem with rfl | later
    · exact ⟨rfl, Nat.le_refl n⟩
    · obtain ⟨owner, least⟩ := ih later
      exact ⟨owner, by omega⟩

theorem owner_of_mem (mem : c ∈ changesIn r) : c.owner = r.key := (mem_placed mem).1

theorem pairwise_placed : (placed project record n changes).Pairwise Placed.Precedes := by
  induction changes generalizing n with
  | nil => exact .nil
  | cons change rest ih =>
    refine .cons (fun c later => ?_) ih
    obtain ⟨owner, least⟩ := mem_placed later
    exact .inr ⟨(Prod.mk.inj owner).2.symm, least⟩

theorem map_placed : (placed project record n changes).map (·.change) = changes := by
  induction changes generalizing n with
  | nil => rfl
  | cons change rest ih => rw [placed, List.map_cons, ih]

theorem filter_changesIn_self (r : Record) {q : Id × Id → Bool} (own : q r.key = true) :
    (changesIn r).filter (fun c => q c.owner) = changesIn r :=
  List.filter_eq_self.mpr fun c mem => by rw [owner_of_mem mem, own]

theorem filter_changesIn_other (r : Record) {q : Id × Id → Bool} (other : q r.key = false) :
    (changesIn r).filter (fun c => q c.owner) = [] :=
  List.filter_eq_nil_iff.mpr fun c mem => by rw [owner_of_mem mem, other]; exact Bool.false_ne_true

/-- Changes that are chosen by the records that they belong to are those of the chosen records. -/
theorem filter_changesIn (q : Id × Id → Bool) (records : List Record) :
    (records.flatMap changesIn).filter (fun c => q c.owner)
      = (records.filter fun r => q r.key).flatMap changesIn := by
  induction records with
  | nil => rfl
  | cons r rest ih =>
    rw [List.flatMap_cons, List.filter_append, ih]
    cases own : q r.key with
    | true =>
      rw [filter_changesIn_self r own, List.filter_cons_of_pos (by rw [own]), List.flatMap_cons]
    | false =>
      rw [filter_changesIn_other r own, List.filter_cons_of_neg (by rw [own]; exact Bool.false_ne_true)]
      rfl

theorem filter_key (distinct : (records.map Record.key).Nodup) (mem : r ∈ records) :
    records.filter (·.key = r.key) = [r] := by
  rw [filter_eq_find? distinct]
  cases found : records.find? (·.key = r.key) with
  | none => exact absurd (decide_eq_true rfl) (List.find?_eq_none.mp found r mem)
  | some x =>
    have same : x.key = r.key := by simpa using List.find?_some found
    rw [List.inj_on_of_nodup_map distinct (List.mem_of_find?_eq_some found) mem same]
    rfl

end Placing

/-- Tables that hold the projects and records of a ledger, with their changes. -/
structure Tables.Holds (T : Tables) (l : Ledger) : Prop where
  projects : T.projects.map (·.2) = l.projects
  records : T.records = l.records
  changes : T.changes.Perm (l.records.flatMap changesIn)
  numbers : (T.projects.map (·.1)).Nodup

namespace Tables.Holds

variable {T : Tables} {l : Ledger} (holds : T.Holds l) (sound : l.Sound)

include holds

theorem mem_projects {e : Int × Project} (mem : e ∈ T.projects) : e.2 ∈ l.projects :=
  holds.projects ▸ List.mem_map_of_mem mem

theorem any_project (id : Id) : (T.projects.any (·.2.id = id)) = l.projects.any (·.id = id) := by
  rw [← holds.projects, List.any_map]
  rfl

/-- A project is found in the tables with a number, or it is in neither. -/
theorem find_project (id : Id) :
    (T.projects.find? (·.2.id = id) = none ∧ l.project id = .error (.projectNotFound id)) ∨
      ∃ n p, T.projects.find? (·.2.id = id) = some (n, p) ∧ l.project id = .ok p ∧
        (n, p) ∈ T.projects ∧ p.id = id := by
  have found : l.projects.find? (·.id = id) = (T.projects.find? (·.2.id = id)).map (·.2) := by
    rw [← holds.projects, List.find?_map]
    rfl
  unfold Ledger.project
  rw [found]
  cases here : T.projects.find? (·.2.id = id) with
  | none => exact .inl ⟨rfl, rfl⟩
  | some e =>
    have named : e.2.id = id := by simpa using List.find?_some here
    exact .inr ⟨e.1, e.2, rfl, rfl, List.mem_of_find?_eq_some here, named⟩

include sound

theorem ids_nodup : (T.projects.map (·.2.id)).Nodup := by
  have distinct := sound.projects
  rw [← holds.projects, List.map_map] at distinct
  exact distinct

theorem keys_nodup : (T.records.map Record.key).Nodup := holds.records ▸ sound.records

/-- The changes of a record among those of several. -/
theorem changesOf_found {project : Id} {ids : List Id} {r : Record} (mem : r ∈ l.records)
    (own : r.project = project) (asked : r.id ∈ ids) :
    Record.changesOf ((inOrder Placed.Precedes (T.changes.filter fun c =>
      c.project = project ∧ c.record ∈ ids)).map fun c => (c.record, c.change)) r.id
      = r.resource.changes := by
  have those : (T.changes.filter fun c => c.project = project ∧ c.record ∈ ids).filter (·.record = r.id)
      = T.changes.filter fun c => decide (c.owner = r.key) := by
    rw [List.filter_filter]
    refine List.filter_congr fun c _ => ?_
    rw [Bool.eq_iff_iff]
    simp only [Bool.and_eq_true, decide_eq_true_eq, Placed.owner, Record.key, Prod.mk.injEq, own]
    constructor
    · rintro ⟨record, project, -⟩
      exact ⟨project, record⟩
    · rintro ⟨project, record⟩
      exact ⟨record, project, record ▸ asked⟩
  have perm : ((T.changes.filter fun c => c.project = project ∧ c.record ∈ ids).filter
      (·.record = r.id)).Perm (changesIn r) := by
    have whole := holds.changes.filter fun c => decide (c.owner = r.key)
    rw [filter_changesIn (fun k => decide (k = r.key)), filter_key sound.records mem] at whole
    rw [those]
    simpa using whole
  have sorted := Placed.places.filter_inOrder_eq pairwise_placed perm
  rw [Record.changesOf_eq, List.filter_map, List.map_map]
  change ((inOrder Placed.Precedes _).filter (·.record = r.id)).map (·.change) = _
  rw [sorted]
  exact map_placed

end Tables.Holds

/-! Reading -/

theorem does_read {numbering : Numbering} {α : Type} {reader : Reader α} {row : Row} {a : α}
    (read : reader row = .ok a) (db : Database) :
    Does numbering (Dialogue.read reader row) db a db := by
  rw [Dialogue.read, read]
  exact does_done a db

theorem does_mapM_read {numbering : Numbering} {α β : Type} {reader : Reader β} {encode : α → Row}
    (value : α → β) {l : List α} (read : ∀ a ∈ l, reader (encode a) = .ok (value a)) (db : Database) :
    Does numbering ((l.map encode).mapM (Dialogue.read reader)) db (l.map value) db := by
  have whole : (l.map encode).mapM reader = .ok (l.map value) := by
    rw [List.mapM_map]
    exact mapM_eq_ok_map read
  rw [Dialogue.mapM_read, whole]
  exact does_done _ db

namespace Tables.Holds

variable (numbering : Numbering) {T : Tables} {l : Ledger} (holds : T.Holds l) (sound : l.Sound)

include holds sound

theorem reads_requireProject (id : Id) :
    Reads numbering (requireProject id) T.database ((l.project id).map fun _ => ()) := by
  have granted := run_selectProject numbering (holds.ids_nodup sound) id [] false
  refine (does_performOptional _ granted rfl).reads ?_
  rcases holds.find_project id with ⟨none, none'⟩ | ⟨n, p, found, found', -⟩
  · rw [none, none']
    exact reads_done _ _
  · rw [found, found']
    exact reads_done _ _

variable (plain : l.Plain)
include plain

theorem reads_readProject (id : Id) :
    Reads numbering (readProject id) T.database (l.project id) := by
  have granted := run_selectProject numbering (holds.ids_nodup sound) id
    Column.ofProject false
  refine (does_performOptional _ granted rfl).reads ?_
  rcases holds.find_project id with ⟨none, none'⟩ | ⟨n, p, found, found', mem, -⟩
  · rw [none, none']
    exact reads_done _ _
  · rw [found, found']
    exact does_read (read_project (plain.created (holds.mem_projects mem))) _

omit plain in
/-- The changes of records are found with one statement, if there are records at all. -/
theorem does_readChanges (project : Id) (ids : List Id) : ∃ found,
    Does numbering (readChanges project ids) T.database found T.database ∧
      ∀ r ∈ l.records, r.project = project → r.id ∈ ids →
        Record.changesOf found r.id = r.resource.changes := by
  unfold readChanges
  cases ids with
  | nil => exact ⟨[], does_done [] _, fun _ _ _ asked => by contradiction⟩
  | cons id rest =>
    refine ⟨_, (does_perform _ (run_selectChanges numbering project (id :: rest))).andThen
      (does_mapM_read (fun c => (c.record, c.change)) (fun c _ => read_change c) _),
      fun r mem own asked => holds.changesOf_found sound mem own asked⟩

theorem reads_readRecord (project id : Id) :
    Reads numbering (readRecord project id) T.database (l.record project id) := by
  have granted := run_selectRecord numbering (holds.keys_nodup sound) project id
  refine (does_performOptional _ granted rfl).reads ?_
  rw [holds.records]
  rcases l.find_record project id with ⟨none, none'⟩ | ⟨r, found, found', mem, rfl, rfl⟩
  · rw [none, none']
    exact reads_done _ _
  · rw [found, found']
    obtain ⟨changes, reads, complete⟩ := holds.does_readChanges numbering sound r.project [r.id]
    refine (does_read (read_record (plain.records r mem)) _).reads (reads.reads ?_)
    rw [complete r mem rfl List.mem_cons_self]
    exact reads_done _ _

end Tables.Holds

end AuditTrail.Server
