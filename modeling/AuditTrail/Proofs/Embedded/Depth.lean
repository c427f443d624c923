import AuditTrail.Contract
import AuditTrail.Embedded.Depth
import AuditTrail.Proofs.Id.Spelling
import AuditTrail.Proofs.Query

/-! Which statements the engine takes. Those of a store are shallow, except that a listing joins one term
for each label that it asks for; so it is a number of labels and conditions that decides. -/
namespace AuditTrail

/-- Whether the engine takes a statement. -/
def Statement.Fits (s : Statement) : Prop := s.fullDepth ≤ Embedded.depthLimit

instance (s : Statement) : Decidable s.Fits := inferInstanceAs (Decidable (_ ≤ _))

/-- A statement about a table of a store that the engine takes. -/
structure Statement.Taken (s : Statement) : Prop where
  stored : s.table ≠ .version
  fits : s.Fits

theorem taken_of_depth {s : Statement} (t : Table) (depth : Nat) (table : s.table = t)
    (whole : s.fullDepth = depth) (small : t ≠ .version ∧ depth ≤ Embedded.depthLimit) : s.Taken :=
  ⟨table ▸ small.1, Nat.le_trans (Nat.le_of_eq whole) small.2⟩

/-- The number of labels and conditions of a filter. -/
def RecordFilter.terms (f : RecordFilter) : Nat :=
  f.labels.entries.length
    + [f.resourceKind, f.resourceId, f.operationKind, f.operationId, f.actorKind, f.actorId].countP
      (·.any (· ≠ ""))
    + [f.timeFrom, f.timeTo].countP (·.isSome)

/-- The number of conditions of a cursor. -/
def RecordCursor.terms (c : RecordCursor) : Nat :=
  c.lastTime.toList.length + c.lastId.toList.length

/-- The number of labels and conditions that a request asks for. Only listings of records ask for any. -/
def Request.terms : Request → Nat
  | .listRecords _ f _ cursor => f.terms + cursor.terms
  | _ => 0

/-- The greatest number of labels and conditions that a listing of a project's records can have. -/
def termLimit : Nat := 993

/-! Depths -/

theorem foldl_joined {ds : List Nat} {joined : Nat} (low : ∀ d ∈ ds, d ≤ joined) :
    ds.foldl (fun joined d => max joined d + 1) joined = joined + ds.length := by
  induction ds generalizing joined with
  | nil => rfl
  | cons d ds ih =>
    obtain ⟨first, rest⟩ := List.forall_mem_cons.mp low
    rw [List.foldl_cons, Nat.max_eq_left first, ih fun x mem => Nat.le_succ_of_le (rest x mem),
      List.length_cons]
    omega

/-- A term of depth 2 with labels behind it and then further terms of depth 2. -/
theorem joinedDepth_labels (labels others : Nat) :
    joinedDepth (2 :: (List.replicate labels 4 ++ List.replicate others 2))
      = if labels = 0 then 2 + others else 4 + labels + others := by
  cases labels with
  | zero =>
    refine (foldl_joined fun d mem => ?_).trans (by simp)
    exact Nat.le_of_eq (List.eq_of_mem_replicate mem)
  | succ n =>
    -- The first label lifts the depth to 5, and no term that follows is as deep.
    have low : ∀ d ∈ List.replicate n 4 ++ List.replicate others 2, d ≤ 5 := by
      intro d mem
      rcases List.mem_append.mp mem with mem | mem <;> rw [List.eq_of_mem_replicate mem] <;> decide
    refine (foldl_joined low).trans ?_
    simp only [List.length_append, List.length_replicate, Nat.succ_ne_zero, if_false]
    omega

/-- Whether a condition compares a column with one value. -/
def Condition.compares : Condition → Bool
  | equals _ _ | below _ _ | atLeast _ _ => true
  | among _ _ | labelled _ => false

section
variable {cs : List Condition} (plain : ∀ c ∈ cs, c.compares = true)
include plain

theorem flatMap_depths : cs.flatMap Condition.depths = List.replicate cs.length 2 := by
  induction cs with
  | nil => rfl
  | cons c cs ih =>
    obtain ⟨first, rest⟩ := List.forall_mem_cons.mp plain
    rw [List.flatMap_cons, ih rest]
    cases c <;> first | rfl | contradiction

theorem foldl_innerDepth (deepest : Nat) :
    (cs.map Condition.innerDepth).foldl max deepest = deepest := by
  induction cs with
  | nil => rfl
  | cons c cs ih =>
    obtain ⟨first, rest⟩ := List.forall_mem_cons.mp plain
    rw [List.map_cons, List.foldl_cons]
    have none : c.innerDepth = 0 := by cases c <;> first | rfl | contradiction
    rw [none, Nat.max_zero, ih rest]

end

/-! The terms of a listing -/

theorem length_optional {α : Type} (condition : α → Condition) (a : Option α) :
    (Selection.optional condition a).length = if a.isSome then 1 else 0 := by
  cases a <;> rfl

theorem length_matching (column : Column) (s : Option String) :
    (Selection.matching column s).length = if s.any (· ≠ "") then 1 else 0 := by
  rw [Selection.matching, length_optional, Option.isSome_filter]

theorem compares_optional {α : Type} {condition : α → Condition}
    (plain : ∀ a, (condition a).compares = true) (a : Option α) :
    ∀ c ∈ Selection.optional condition a, c.compares = true := by
  cases a with
  | none => simp [Selection.optional]
  | some a => exact List.forall_mem_singleton.mpr (plain a)

theorem compares_after (key : Option (Instant × Id)) :
    ∀ c ∈ Selection.after key, c.compares = true := by
  rcases key with _ | ⟨t, id⟩ <;> simp [Selection.after, Condition.compares]

theorem RecordCursor.terms_le (c : RecordCursor) : c.terms ≤ 2 := by
  rcases c with ⟨_ | t, _ | id⟩ <;> simp [terms]

theorem length_after {cursor : RecordCursor} {key : Option (Instant × Id)}
    (complete : cursor.keyset = .ok key) : (Selection.after key).length = cursor.terms := by
  rcases cursor with ⟨_ | t, _ | id⟩ <;> cases complete <;> rfl

namespace RecordFilter

/-- The conditions of a filter that are not about labels. -/
def others (f : RecordFilter) : List Condition := Selection.filtering { f with labels := .empty }

theorem compares_others (f : RecordFilter) : ∀ c ∈ f.others, c.compares = true := by
  have text (column : Column) (s : Option String) :
      ∀ c ∈ Selection.matching column s, c.compares = true := compares_optional (fun _ => rfl) _
  simp only [others, Selection.filtering, List.forall_mem_append]
  exact ⟨⟨⟨⟨⟨⟨⟨⟨List.forall_mem_nil _, text _ _⟩, text _ _⟩, text _ _⟩, text _ _⟩, text _ _⟩, text _ _⟩,
    compares_optional (fun _ => rfl) _⟩, compares_optional (fun _ => rfl) _⟩

theorem length_others (f : RecordFilter) : f.labels.entries.length + f.others.length = f.terms := by
  simp only [others, Selection.filtering, terms, List.length_append, length_matching, length_optional,
    List.countP_cons, List.countP_nil, TextMap.empty, List.isEmpty_nil, if_true, List.length_nil]
  omega

theorem length_others_le (f : RecordFilter) : f.others.length ≤ 8 := by
  have whole := f.length_others
  have texts := List.countP_le_length (p := fun s : Option String => s.any (· ≠ "")) (l :=
    [f.resourceKind, f.resourceId, f.operationKind, f.operationId, f.actorKind, f.actorId])
  have times := List.countP_le_length (p := fun t : Option Instant => t.isSome) (l := [f.timeFrom, f.timeTo])
  simp only [terms, List.length_cons, List.length_nil] at whole texts times
  omega

/-- A filter asks for its labels first. -/
theorem filtering_labels_first (f : RecordFilter) : Selection.filtering f
    = (if f.labels.entries.isEmpty then [] else [.labelled f.labels]) ++ f.others := by
  simp [Selection.filtering, others, TextMap.empty]

theorem mem_filtering {f : RecordFilter} {c : Condition} (mem : c ∈ Selection.filtering f) :
    c = .labelled f.labels ∨ c ∈ f.others := by
  rw [filtering_labels_first] at mem
  rcases List.mem_append.mp mem with labels | others
  · split at labels
    · contradiction
    · exact .inl (List.mem_singleton.mp labels)
  · exact .inr others

end RecordFilter

section
variable (p : Id) (f : RecordFilter) (limit : Nat) (key : Option (Instant × Id))

theorem depths_records : (Statement.select (.records p f limit key)).conditions.flatMap Condition.depths
    = 2 :: (List.replicate f.labels.entries.length 4
      ++ List.replicate (f.others.length + (Selection.after key).length) 2) := by
  simp only [Statement.conditions, Selection.records, f.filtering_labels_first, List.cons_append,
    List.flatMap_cons, List.flatMap_append, flatMap_depths f.compares_others,
    flatMap_depths (compares_after key), List.replicate_append_replicate, List.append_assoc]
  cases empty : f.labels.entries with
  | nil => rfl
  | cons e rest => simp [Condition.depths, Condition.ofProject, empty, List.replicate_succ]

theorem innerDepth_records :
    ((Statement.select (.records p f limit key)).conditions.map Condition.innerDepth).foldl max 0
      = if f.labels.entries.isEmpty then 0 else 3 := by
  simp only [Statement.conditions, Selection.records, f.filtering_labels_first, List.cons_append,
    List.map_cons, List.map_append, List.foldl_cons, List.foldl_append,
    foldl_innerDepth f.compares_others, foldl_innerDepth (compares_after key)]
  cases empty : f.labels.entries.isEmpty <;> simp [Condition.innerDepth, Condition.ofProject, empty]

/-- The engine takes a listing of records as long as its labels and conditions are not too many. -/
theorem fits_records_iff {cursor : RecordCursor} (complete : cursor.keyset = .ok key) :
    (Statement.select (.records p f limit key)).Fits ↔ f.terms + cursor.terms ≤ termLimit := by
  have whole := f.length_others
  have few := f.length_others_le
  have most := cursor.terms_le
  rw [Statement.Fits, Statement.fullDepth, Statement.depth, depths_records, innerDepth_records,
    joinedDepth_labels, length_after complete, Embedded.depthLimit, termLimit]
  cases empty : f.labels.entries with
  | nil =>
    simp only [empty, List.length_nil] at whole
    simp only [List.length_nil, List.isEmpty_nil, if_true]
    omega
  | cons e rest =>
    simp only [empty, List.length_cons] at whole
    simp only [List.length_cons, Nat.succ_ne_zero, if_false, List.isEmpty_cons, Bool.false_eq_true]
    omega

end

/-- A filter without labels is never too much. -/
theorem RecordFilter.terms_le_of_unlabelled {f : RecordFilter} (unlabelled : f.labels.entries = [])
    (cursor : RecordCursor) : f.terms + cursor.terms ≤ termLimit := by
  have whole := f.length_others
  have few := f.length_others_le
  have most := cursor.terms_le
  rw [unlabelled, List.length_nil] at whole
  rw [termLimit]
  omega

theorem Request.eq_listRecords_of_terms {r : Request} (many : ¬ r.terms ≤ termLimit) :
    ∃ project f limit cursor, r = .listRecords project f limit cursor := by
  cases r with
  | listRecords project f limit cursor => exact ⟨project, f, limit, cursor, rfl⟩
  | _ => exact absurd (Nat.zero_le termLimit) many

/-! A filter that is too much -/

/-- Labels in a given number, up to that of identifiers, whose names are the texts of the first identifiers. -/
def numberedLabels (n : Nat) (few : n ≤ Id.count) : TextMap where
  entries := (List.range n).map fun k => ((Id.ofNat k).text, "")
  ascending := by
    refine List.pairwise_map.mpr (List.pairwise_lt_range.imp_of_mem fun {a b} ha hb less => ?_)
    have small {k : Nat} (mem : k ∈ List.range n) : (Id.ofNat k).number = k :=
      Nat.mod_eq_of_lt (Nat.lt_of_lt_of_le (List.mem_range.mp mem) few)
    change (Id.ofNat a).text < (Id.ofNat b).text
    rw [Id.text_lt_text]
    change (Id.ofNat a).number < (Id.ofNat b).number
    rwa [small ha, small hb]

end AuditTrail
