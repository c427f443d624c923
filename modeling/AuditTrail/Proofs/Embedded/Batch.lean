import AuditTrail.Proofs.Embedded.Atomicity
import AuditTrail.Proofs.Embedded.Fidelity
import AuditTrail.Proofs.Embedded.Representation

/-! A batch of records against its records one by one. A batch adds the rows of all its records before
the rows of any change, and one by one they take turns; either way the same rows are added in the same
places, and what stands in the way of a record does so at every place of the batch. -/
namespace AuditTrail.Embedded

/-- Requests that create the records of a batch one by one, all with the same creation time. -/
def oneByOne (createTime : Instant) (batch : List Record) : List Request :=
  batch.map fun r => .createRecords [{ r with createTime := createTime }]

namespace Content

/-- A project that can take records with these identifiers. -/
structure Takes (c : Content) (project : Id) (ids : List Id) : Prop where
  owned : c.hasProject project = true
  fresh : ∀ i ∈ ids, c.hasRecord project i = false
  distinct : ids.Nodup

/-- The content with the rows of a batch and of its changes. -/
def addBatch (c : Content) (project : Id) (createTime : Instant) (batch : List Record) : Content :=
  { c with
    records := c.records ++ batch.map (recordRow project createTime)
    changes := c.changes ++ batchChanges project batch }

variable {c d : Content} {project : Id} {createTime : Instant} {r first : Record}
  {batch rest : List Record}

theorem addBatch_nil (c : Content) (project : Id) (createTime : Instant) :
    c.addBatch project createTime [] = c := by
  simp [addBatch, batchChanges]

/-- The rows of the first record and of its changes may as well be added before the others. -/
theorem addBatch_cons (c : Content) (project : Id) (createTime : Instant) (r : Record)
    (rest : List Record) : c.addBatch project createTime (r :: rest)
      = (c.addBatch project createTime [r]).addBatch project createTime rest := by
  simp [addBatch, batchChanges]

theorem hasRecord_addBatch (c : Content) (project : Id) (createTime : Instant)
    (batch : List Record) (id : Id) : (c.addBatch project createTime batch).hasRecord project id
      = (c.hasRecord project id || batch.any (·.id = id)) := by
  simp [hasRecord, addBatch, isRecord_recordRow, Function.comp_def]

/-- What stands in the way of a batch stands in the way of its first record, or of the others after
it. -/
theorem takes_cons (createTime : Instant) : c.Takes project ((r :: rest).map (·.id)) ↔
    c.Takes project [r.id] ∧
      (c.addBatch project createTime [r]).Takes project (rest.map (·.id)) := by
  have after (i : Id) : (c.addBatch project createTime [r]).hasRecord project i = false ↔
      c.hasRecord project i = false ∧ r.id ≠ i := by
    simp [hasRecord_addBatch]
  constructor
  · rintro ⟨owned, fresh, distinct⟩
    obtain ⟨own, others⟩ := List.forall_mem_cons.mp fresh
    obtain ⟨unused, distinct⟩ := List.nodup_cons.mp distinct
    refine ⟨⟨owned, by simpa using own, List.nodup_singleton _⟩, owned, fun i mem => ?_, distinct⟩
    exact (after i).mpr ⟨others i mem, fun | rfl => unused mem⟩
  · rintro ⟨⟨owned, own, -⟩, -, others, distinct⟩
    refine ⟨owned, List.forall_mem_cons.mpr ⟨own r.id List.mem_cons_self, fun i mem => ?_⟩, ?_⟩
    · exact ((after i).mp (others i mem)).1
    · exact List.nodup_cons.mpr ⟨fun used => ((after r.id).mp (others r.id used)).2 rfl, distinct⟩

theorem Takes.perm {ids other : List Id} (takes : c.Takes project ids) (perm : other.Perm ids) :
    c.Takes project other :=
  ⟨takes.owned, fun i mem => takes.fresh i (perm.subset mem), perm.nodup_iff.mpr takes.distinct⟩

/-- The rows of a batch of one project can be added just when its project can take it. -/
theorem admits_iff_takes (owned : c.hasProject project = true) :
    admits (keyOf .records) c.records (batch.map (recordRow project createTime)) = true ↔
      c.Takes project (batch.map (·.id)) := by
  rw [admits_batch, Bool.not_eq_true', Bool.or_eq_false_iff, List.any_eq_false]
  constructor
  · rintro ⟨fresh, distinct⟩
    exact ⟨owned, by simpa using fresh, by simpa using distinct⟩
  · rintro ⟨-, fresh, distinct⟩
    exact ⟨by simpa using fresh, by simpa using distinct⟩

/-- A batch of one project is created just when its project can take it, and its rows are added. -/
theorem createRecords_eq_ok_iff (sound : c.Sound) (together : ∀ r ∈ rest, r.project = first.project) :
    c.createRecords (first :: rest) = .ok d ↔
      c.Takes first.project ((first :: rest).map (·.id)) ∧
        d = c.addBatch first.project first.createTime (first :: rest) := by
  constructor
  · intro created
    cases step_of_createRecords created with
    | createRecords _ owned records changes =>
      obtain ⟨room, rfl⟩ := addRecords_eq_ok records
      obtain ⟨-, rfl⟩ := addChanges_eq_ok changes
      exact ⟨(admits_iff_takes owned).mp room, rfl⟩
  · rintro ⟨takes, rfl⟩
    have room : admits (keyOf .records) c.records
        ((first :: rest).map (recordRow first.project first.createTime)) = true :=
      (admits_iff_takes takes.owned).mpr takes
    obtain ⟨d, e, records, changes⟩ := exists_addChanges sound room
    have one : ¬ (first :: rest).any (·.project ≠ first.project) = true := by simpa using together
    have created : c.createRecords (first :: rest) = .ok e := by
      rw [createRecords]
      simp only [if_neg one, requireProject, if_pos takes.owned, bind, Except.bind, records]
      exact changes
    obtain ⟨-, rfl⟩ := addRecords_eq_ok records
    obtain ⟨-, rfl⟩ := addChanges_eq_ok changes
    exact created

theorem reply_createRecords : c.reply (.createRecords batch) = .ok .done ∧
    c.after (.createRecords batch) = d ↔ c.createRecords batch = .ok d := by
  simp only [reply, after, handle]
  cases c.createRecords batch with
  | error e => simp [Except.map]
  | ok e => simp [Except.map, settle]

end Content

section
variable {s : Session} {t : Content} {first : Record} {rest : List Record}

/-- When a batch is created, and what is stored then. -/
theorem Reachable.createRecords_iff (reached : Reachable s)
    (together : ∀ r ∈ rest, r.project = first.project) :
    s.reply (.createRecords (first :: rest)) = .ok .done ∧
        (s.after (.createRecords (first :: rest))).content = t ↔
      s.content.Takes first.project ((first :: rest).map (·.id)) ∧
        t = s.content.addBatch first.project first.createTime (first :: rest) := by
  rw [reached.serves.reply, (reached.serves.after _).content, Content.reply_createRecords,
    Content.createRecords_eq_ok_iff reached.sound together]

theorem Reachable.reply_createRecords (reached : Reachable s)
    (together : ∀ r ∈ rest, r.project = first.project) :
    s.reply (.createRecords (first :: rest)) = .ok .done ↔
      s.content.Takes first.project ((first :: rest).map (·.id)) :=
  ⟨fun done => ((reached.createRecords_iff together).mp ⟨done, rfl⟩).1,
    fun takes => ((reached.createRecords_iff together).mpr ⟨takes, rfl⟩).1⟩

/-- When records are created one by one, and what is stored then: by induction on the batch, each
record against what has been stored by then. -/
theorem Reachable.oneByOne_iff {project : Id} (createTime : Instant) {batch : List Record}
    (reached : Reachable s) (together : ∀ r ∈ batch, r.project = project)
    (owned : s.content.hasProject project = true) :
    (∀ answer ∈ s.replies (oneByOne createTime batch), answer = .ok .done) ∧
        (s.afterAll (oneByOne createTime batch)).content = t ↔
      s.content.Takes project (batch.map (·.id)) ∧
        t = s.content.addBatch project createTime batch := by
  induction batch generalizing s with
  | nil =>
    have takes : s.content.Takes project [] := ⟨owned, by simp, List.nodup_nil⟩
    simp [oneByOne, Session.replies, Session.afterAll, Content.addBatch_nil, takes, eq_comm]
  | cons r rest ih =>
    obtain ⟨rfl, together⟩ := List.forall_mem_cons.mp together
    let single : Request := .createRecords [{ r with createTime := createTime }]
    have alone {d : Content} : s.reply single = .ok .done ∧ (s.after single).content = d ↔
        s.content.Takes r.project [r.id] ∧ d = s.content.addBatch r.project createTime [r] :=
      reached.createRecords_iff (List.forall_mem_nil _)
    have step : oneByOne createTime (r :: rest) = single :: oneByOne createTime rest := rfl
    rw [step, Session.replies, List.forall_mem_cons, Content.takes_cons createTime,
      Content.addBatch_cons _ _ _ r rest]
    by_cases takes : s.content.Takes r.project [r.id]
    · obtain ⟨done, stored⟩ := alone.mpr ⟨takes, rfl⟩
      have later := ih (.answered single reached) together (by rwa [stored])
      rw [stored] at later
      simp only [done, takes, true_and, ← later]
      rfl
    · have refused : s.reply single ≠ .ok .done := fun done => takes (alone.mp ⟨done, rfl⟩).1
      simp only [refused, takes, false_and]

/-- Creating a batch comes to creating its records one by one. A project that is not there takes no
record either way. -/
theorem Reachable.batch_iff_oneByOne (reached : Reachable s)
    (together : ∀ r ∈ rest, r.project = first.project) :
    s.reply (.createRecords (first :: rest)) = .ok .done ∧
        (s.after (.createRecords (first :: rest))).content = t ↔
      (∀ answer ∈ s.replies (oneByOne first.createTime (first :: rest)), answer = .ok .done) ∧
        (s.afterAll (oneByOne first.createTime (first :: rest))).content = t := by
  by_cases owned : s.content.hasProject first.project = true
  · rw [reached.createRecords_iff together, reached.oneByOne_iff first.createTime
      (List.forall_mem_cons.mpr ⟨rfl, together⟩) owned]
  · constructor
    · rintro ⟨done, -⟩
      exact absurd ((reached.reply_createRecords together).mp done).owned owned
    · rintro ⟨done, -⟩
      have alone := (List.forall_mem_cons.mp done).1
      exact absurd ((reached.reply_createRecords (List.forall_mem_nil _)).mp alone).owned owned

/-- A batch is created or refused. -/
theorem Reachable.done_of_ok (reached : Reachable s) {batch : List Record} {a : Answer}
    (replied : s.reply (.createRecords batch) = .ok a) :
    s.reply (.createRecords batch) = .ok .done := by
  rw [reached.serves.reply] at replied ⊢
  obtain ⟨p, handled, -⟩ := map_eq_ok replied
  obtain ⟨d, created, -⟩ := map_eq_ok handled
  exact (Content.reply_createRecords.mpr created).1

theorem Reachable.content_of_refused (reached : Reachable s) {batch : List Record}
    (refused : s.reply (.createRecords batch) ≠ .ok .done) :
    (s.after (.createRecords batch)).content = s.content := by
  cases replied : s.reply (.createRecords batch) with
  | ok a => exact absurd (reached.done_of_ok replied) refused
  | error e =>
    rw [reached.serves.reply] at replied
    rw [(reached.serves.after _).content, Content.after_of_error replied]

/-- No batch changes a project, whether it is created or not. -/
theorem Reachable.projects_of_createRecords (reached : Reachable s) (batch : List Record) :
    (s.after (.createRecords batch)).content.projects = s.content.projects := by
  rw [(reached.serves.after _).content]
  rcases s.content.after_cases (.createRecords batch) with same | ⟨-, step⟩
  · rw [same]
  · exact step.projects_eq fun _ => rfl

theorem Reachable.entry_of_not_names (reached : Reachable s) {q : Request} {p i : Id}
    (other : ¬ names p i q) : (s.after q).content.entry p i = s.content.entry p i := by
  rw [(reached.serves.after _).content]
  rcases s.content.after_cases q with same | ⟨-, step⟩
  · rw [same]
  · exact Content.entry_of_not_names step other

/-! A batch in another order -/

variable {first' : Record} {rest' : List Record} (perm : (first' :: rest').Perm (first :: rest))
include perm

/-- The order of a batch does not decide whether it is created. -/
theorem Reachable.reply_perm (reached : Reachable s)
    (together : ∀ r ∈ rest, r.project = first.project) :
    s.reply (.createRecords (first' :: rest')) = .ok .done ↔
      s.reply (.createRecords (first :: rest)) = .ok .done := by
  have one : ∀ r ∈ first :: rest, r.project = first.project :=
    List.forall_mem_cons.mpr ⟨rfl, together⟩
  obtain ⟨same, others⟩ := List.forall_mem_cons.mp fun r mem => one r (perm.subset mem)
  have together' : ∀ r ∈ rest', r.project = first'.project := same ▸ others
  rw [reached.reply_createRecords together', reached.reply_createRecords together, same]
  exact ⟨(·.perm (perm.symm.map _)), (·.perm (perm.map _))⟩

/-- Batches of the same records are stored alike, whatever their order, as long as the creation time
of the first is the same. -/
theorem Reachable.entry_perm (reached : Reachable s) (created : first'.createTime = first.createTime)
    (left : s.reply (.createRecords (first' :: rest')) = .ok .done)
    (right : s.reply (.createRecords (first :: rest)) = .ok .done) (p i : Id) :
    (s.after (.createRecords (first' :: rest'))).content.entry p i
      = (s.after (.createRecords (first :: rest))).content.entry p i := by
  by_cases named : names p i (.createRecords (first :: rest))
  · obtain ⟨r, mem, rfl, rfl⟩ := named
    have own : (s.after (.createRecords (first :: rest))).content.entry r.project r.id = _ :=
      reached.record_stays right mem (show Session.Refuses _ _ [] from trivial)
    have other : (s.after (.createRecords (first' :: rest'))).content.entry r.project r.id = _ :=
      reached.record_stays left (perm.symm.subset mem) (show Session.Refuses _ _ [] from trivial)
    rw [own, other, created]
  · have unnamed : ¬ names p i (.createRecords (first' :: rest')) :=
      fun ⟨r, mem, own⟩ => named ⟨r, perm.subset mem, own⟩
    rw [reached.entry_of_not_names unnamed, reached.entry_of_not_names named]
end

/-- Creating a batch of one project is creating its records one by one with the creation time of the
first: the one succeeds just when all of the others do, with the same content afterwards, and where a
single record would be refused the batch is refused and leaves no trace. In another order, as long as
the first creation time stays, the batch succeeds just as well and stores the same under every key. -/
theorem batch_is_one_by_one {s : Session} (reached : Reachable s) {first : Record}
    {rest : List Record} (together : ∀ r ∈ rest, r.project = first.project) :
    let batch := Request.createRecords (first :: rest)
    let singles := oneByOne first.createTime (first :: rest)
    (∀ t, s.reply batch = .ok .done ∧ (s.after batch).content = t ↔
      (∀ answer ∈ s.replies singles, answer = .ok .done) ∧ (s.afterAll singles).content = t) ∧
    ((∃ answer ∈ s.replies singles, ∃ e, answer = .error e) →
      (∃ e, s.reply batch = .error e) ∧ (s.after batch).file = s.file) ∧
    ∀ first' rest', (first' :: rest').Perm (first :: rest) → first'.createTime = first.createTime →
      let other := Request.createRecords (first' :: rest')
      (s.reply other = .ok .done ↔ s.reply batch = .ok .done) ∧
      (s.after other).content.projects = (s.after batch).content.projects ∧
      ∀ p i, (s.after other).content.entry p i = (s.after batch).content.entry p i := by
  refine ⟨fun t => reached.batch_iff_oneByOne together, ?_, fun first' rest' perm created => ?_⟩
  · rintro ⟨_, replied, e, rfl⟩
    cases answered : s.reply (.createRecords (first :: rest)) with
    | error e' => exact ⟨⟨e', rfl⟩, file_of_reply_error answered⟩
    | ok a =>
      have done := (reached.batch_iff_oneByOne together).mp ⟨reached.done_of_ok answered, rfl⟩
      exact absurd (done.1 _ replied) (by simp)
  · have alike := reached.reply_perm perm together
    refine ⟨alike, ?_, fun p i => ?_⟩
    · rw [reached.projects_of_createRecords, reached.projects_of_createRecords]
    · by_cases done : s.reply (.createRecords (first :: rest)) = .ok .done
      · exact reached.entry_perm perm created (alike.mpr done) done p i
      · rw [reached.content_of_refused done, reached.content_of_refused fun d => done (alike.mp d)]

/-- Three records of a project, of which the second has changes, and one that is stored already. -/
theorem batch_is_one_by_one_default :
    let r : Record := { (default : Record) with id := .ofNat 1, createTime := ⟨5, 6⟩ }
    let changed : Record := { r with
      id := .ofNat 2
      createTime := ⟨7, 0⟩
      resource := { r.resource with changes := [default, ⟨"name", some "", none, none⟩] } }
    let third : Record := { r with id := .ofNat 3 }
    let stored : Record := { r with id := .ofNat 4 }
    let s := ((Session.opened .default).after (.createProject default)).after
      (.createRecords [stored])
    ((∀ answer ∈ s.replies (oneByOne r.createTime [r, changed, third]), answer = .ok .done) ∧
      (s.afterAll (oneByOne r.createTime [r, changed, third])).content
        = (s.after (.createRecords [r, changed, third])).content) ∧
    ((∃ e, s.reply (.createRecords [r, stored, third]) = .error e) ∧
      (s.after (.createRecords [r, stored, third])).file = s.file) ∧
    ∀ p i, (s.after (.createRecords [third, r, changed])).content.entry p i
      = (s.after (.createRecords [r, changed, third])).content.entry p i := by
  intro r changed third stored s
  have reached : Reachable s :=
    .answered _ (.answered _ (.opened true (openStore_empty .default)))
  have whole := batch_is_one_by_one reached
    (show ∀ x ∈ [changed, third], x.project = r.project by decide)
  refine ⟨(whole.1 _).mp ⟨by decide +kernel, rfl⟩, ?_, ?_⟩
  · have refused : .error ((Fault.notUnique .records (keyOf .records)).error "Failed to insert record")
        ∈ s.replies (oneByOne r.createTime [r, stored, third]) := by decide +kernel
    have second := batch_is_one_by_one reached
      (show ∀ x ∈ [stored, third], x.project = r.project by decide)
    exact second.2.1 ⟨_, refused, _, rfl⟩
  · exact (whole.2.2 third [r, changed] (by decide) rfl).2.2

end AuditTrail.Embedded
