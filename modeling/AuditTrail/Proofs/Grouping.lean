import AuditTrail.Record
import Mathlib.Data.List.Basic
import Mathlib.Data.List.Perm.Basic

/-! Changes that are gathered by their records and handed out again. What a record gets are the changes
that were found for it, in the order in which they were found: a group grows with the changes of its
record only, and taking a group out leaves the others alone. -/
namespace AuditTrail

namespace ChangeGroups

variable {g : ChangeGroups} {found : List (Id × Change)} {records : List Record} {i j : Id}

theorem find?_put (id : Id) (c : Change) (l : List (Id × List Change)) (i : Id) :
    (((put id c l).find? (·.1 = i)).map (·.2)).getD []
      = ((l.find? (·.1 = i)).map (·.2)).getD [] ++ if id = i then [c] else [] := by
  induction l with
  | nil => by_cases own : id = i <;> simp [put, own]
  | cons e rest ih =>
    by_cases here : e.1 = id
    · rw [put, if_pos here]
      by_cases own : id = i <;> simp [here, own]
    · rw [put, if_neg here]
      by_cases there : e.1 = i
      · have other : ¬ id = i := fun own => here (there.trans own.symm)
        simp [there, other]
      · simpa [there] using ih

theorem of_push (g : ChangeGroups) (e : Id × Change) (i : Id) :
    (g.push e).of i = g.of i ++ if e.1 = i then [e.2] else [] :=
  find?_put e.1 e.2 g.groups i

/-- What was gathered already stands in front. -/
theorem of_foldl_push (g : ChangeGroups) (found : List (Id × Change)) (i : Id) :
    (found.foldl push g).of i = g.of i ++ (found.filter (·.1 = i)).map (·.2) := by
  induction found generalizing g with
  | nil => simp
  | cons e rest ih =>
    rw [List.foldl_cons, ih, of_push, List.append_assoc]
    by_cases own : e.1 = i <;> simp [own]

theorem of_gather (found : List (Id × Change)) (i : Id) :
    (gather found).of i = (found.filter (·.1 = i)).map (·.2) :=
  of_foldl_push empty found i

theorem of_take (g : ChangeGroups) (i j : Id) :
    (g.take i).2.of j = if j = i then [] else g.of j := by
  have kept : (g.take i).2.of j
      = ((g.groups.find? fun e => decide (e.1 ≠ i ∧ e.1 = j)).map (·.2)).getD [] := by
    simp [take, of]
  rw [kept]
  split
  · next taken =>
    have none : g.groups.find? (fun e => decide (e.1 ≠ i ∧ e.1 = j)) = none :=
      List.find?_eq_none.mpr fun e _ => by simp [taken]
    rw [none]
    rfl
  · next other =>
    have same : (fun e : Id × List Change => decide (e.1 ≠ i ∧ e.1 = j))
        = fun e => decide (e.1 = j) := by
      funext e
      by_cases mine : e.1 = j <;> simp [mine, other]
    rw [same, of]

theorem handOut_cons (g : ChangeGroups) (r : Record) (rest : List Record) :
    g.handOut (r :: rest) = r.withChanges (g.of r.id) :: (g.take r.id).2.handOut rest := rfl

/-- Only the groups count, and not how they are kept. -/
theorem handOut_congr {g h : ChangeGroups} (same : ∀ i, g.of i = h.of i) (records : List Record) :
    g.handOut records = h.handOut records := by
  induction records generalizing g h with
  | nil => rfl
  | cons r rest ih =>
    rw [handOut_cons, handOut_cons, same, ih fun i => ?_]
    rw [of_take, of_take, same]

/-- Records of distinct identifiers do not take anything from each other. -/
theorem handOut_eq_map (g : ChangeGroups) (distinct : (records.map (·.id)).Nodup) :
    g.handOut records = records.map fun r => r.withChanges (g.of r.id) := by
  induction records generalizing g with
  | nil => rfl
  | cons r rest ih =>
    obtain ⟨fresh, distinct⟩ := List.nodup_cons.mp distinct
    rw [handOut_cons, ih _ distinct, List.map_cons]
    congr 1
    refine List.map_congr_left fun x mem => ?_
    have other : x.id ≠ r.id := fun same => fresh (List.mem_map.mpr ⟨x, mem, same⟩)
    rw [of_take, if_neg other]

end ChangeGroups

namespace Record

variable {found : List (Id × Change)} {records : List Record}

theorem changesOf_eq (found : List (Id × Change)) (id : Id) :
    changesOf found id = (found.filter (·.1 = id)).map (·.2) :=
  ChangeGroups.of_gather found id

/-- Records of distinct identifiers get their changes one by one. -/
theorem attach_eq_map (distinct : (records.map (·.id)).Nodup) : attach found records
    = records.map fun r => r.withChanges (changesOf found r.id) :=
  ChangeGroups.handOut_eq_map _ distinct

/-- The first record takes its changes, and the others are left with the changes that are not its. -/
theorem attach_cons (found : List (Id × Change)) (r : Record) (rest : List Record) :
    attach found (r :: rest)
      = r.withChanges (changesOf found r.id) :: attach (found.filter (·.1 ≠ r.id)) rest := by
  rw [attach, ChangeGroups.handOut_cons]
  refine congrArg (_ :: ·) (ChangeGroups.handOut_congr (fun i => ?_) rest)
  rw [ChangeGroups.of_take, ChangeGroups.of_gather, ChangeGroups.of_gather, List.filter_filter]
  split
  · next taken => simp [taken]
  · next other =>
    refine congrArg _ (List.filter_congr fun e _ => ?_)
    by_cases mine : e.1 = i <;> simp [mine, other]

/-- The changes of records, each with the identifier of its record. -/
def allChanges (records : List Record) : List (Id × Change) :=
  records.flatMap fun r => r.resource.changes.map (r.id, ·)

theorem map_changesOf (found : List (Id × Change)) (id : Id) :
    (changesOf found id).map (id, ·) = found.filter (·.1 = id) := by
  rw [changesOf_eq, List.map_map]
  refine (List.map_congr_left fun e mem => ?_).trans (List.map_id _)
  have own : e.1 = id := of_decide_eq_true (List.mem_filter.mp mem).2
  exact Prod.ext own.symm rfl

/-- Nothing is lost and nothing is given away twice: each change that was found for one of the records
is the change of one record, once, whatever the identifiers of the records. -/
theorem allChanges_attach (found : List (Id × Change)) (records : List Record) :
    (allChanges (attach found records)).Perm (found.filter (·.1 ∈ records.map (·.id))) := by
  induction records generalizing found with
  | nil => simp [attach, ChangeGroups.handOut, allChanges]
  | cons r rest ih =>
    have first : allChanges (attach found (r :: rest))
        = found.filter (·.1 = r.id) ++ allChanges (attach (found.filter (·.1 ≠ r.id)) rest) := by
      rw [attach_cons, ← map_changesOf]
      rfl
    have own : (found.filter (·.1 ∈ (r :: rest).map (·.id))).filter (·.1 = r.id)
        = found.filter (·.1 = r.id) := by
      rw [List.filter_filter]
      refine List.filter_congr fun e _ => ?_
      by_cases mine : e.1 = r.id <;> simp [mine]
    have others : (found.filter (·.1 ∈ (r :: rest).map (·.id))).filter (fun e => !decide (e.1 = r.id))
        = (found.filter (·.1 ≠ r.id)).filter (·.1 ∈ rest.map (·.id)) := by
      rw [List.filter_filter, List.filter_filter]
      refine List.filter_congr fun e _ => ?_
      by_cases mine : e.1 = r.id <;> simp [mine]
    have parts := List.filter_append_perm (fun e : Id × Change => decide (e.1 = r.id))
      (found.filter (·.1 ∈ (r :: rest).map (·.id)))
    rw [own, others] at parts
    rw [first]
    exact ((ih _).append_left _).trans parts

end Record

end AuditTrail
