import AuditTrail.Id
import AuditTrail.Text.TextMap
import AuditTrail.Time.Instant
/-!
Audit records: who did what to which resource. A record belongs to a project and keeps its changes
in order.
-/
namespace AuditTrail

/-- How an operation ended. -/
inductive Status where
  | unspecified
  | succeeded
  | failed
deriving DecidableEq, Repr, Inhabited

namespace Status

/-- The number under which a status is stored. -/
def code : Status → Int
  | unspecified => 0
  | succeeded => 1
  | failed => 2

def ofCode? (n : Int) : Option Status :=
  if n = 0 then some unspecified
  else if n = 1 then some succeeded
  else if n = 2 then some failed
  else none

@[simp] theorem ofCode?_code (s : Status) : ofCode? s.code = some s := by
  cases s <;> rfl

def name : Status → String
  | unspecified => "unspecified"
  | succeeded => "succeeded"
  | failed => "failed"

end Status

/-- The headers that tie an operation to a distributed trace. -/
structure TraceContext where
  parent : Option String
  state : Option String
deriving DecidableEq, Inhabited

namespace TraceContext

def isEmpty (t : TraceContext) : Bool :=
  t.parent.isNone && t.state.isNone

end TraceContext

/-- One change of a resource. Values are bytes that nobody interprets. -/
structure Change where
  name : String
  description : Option String
  oldValue : Option (List UInt8)
  newValue : Option (List UInt8)
deriving DecidableEq, Inhabited

/-- What was acted upon. -/
structure Resource where
  kind : String
  id : String
  metadata : TextMap
  changes : List Change
deriving DecidableEq, Inhabited

/-- What was done. -/
structure Operation where
  kind : String
  id : String
  time : Instant
  metadata : TextMap
  trace : TraceContext
  status : Status
deriving DecidableEq, Inhabited

/-- Who did it. -/
structure Actor where
  kind : String
  id : String
  metadata : TextMap
deriving DecidableEq, Inhabited

/-- An audit record. -/
structure Record where
  id : Id
  project : Id
  createTime : Instant
  labels : TextMap
  resource : Resource
  operation : Operation
  actor : Actor
deriving DecidableEq, Inhabited

def Record.withChanges (r : Record) (changes : List Change) : Record :=
  { r with resource := { r.resource with changes := changes } }

/-- Changes by the records that they belong to. A record has one group at most, and a group keeps the
order in which its changes were found. -/
structure ChangeGroups where
  groups : List (Id × List Change)
  distinct : (groups.map (·.1)).Nodup

namespace ChangeGroups

def empty : ChangeGroups := ⟨[], List.nodup_nil⟩

/-- Puts a change at the end of a record's group, which the first change opens. -/
def put (id : Id) (c : Change) : List (Id × List Change) → List (Id × List Change)
  | [] => [(id, [c])]
  | e :: rest => if e.1 = id then (id, e.2 ++ [c]) :: rest else e :: put id c rest

theorem mem_put {id : Id} {c : Change} {i : Id} {l : List (Id × List Change)}
    (mem : i ∈ (put id c l).map (·.1)) : i = id ∨ i ∈ l.map (·.1) := by
  induction l with
  | nil => simpa [put] using mem
  | cons e rest ih =>
    simp only [put] at mem
    split at mem
    · next same => simpa [same] using mem
    · rcases List.mem_cons.1 mem with first | mem
      · exact .inr (first ▸ List.mem_cons_self)
      · exact (ih mem).imp_right (List.mem_cons_of_mem _)

theorem put_distinct (id : Id) (c : Change) {l : List (Id × List Change)}
    (distinct : (l.map (·.1)).Nodup) : ((put id c l).map (·.1)).Nodup := by
  induction l with
  | nil => simp [put]
  | cons e rest ih =>
    obtain ⟨fresh, later⟩ := List.nodup_cons.1 distinct
    simp only [put]
    split
    · next same => exact List.nodup_cons.2 ⟨same ▸ fresh, later⟩
    · next other =>
      exact List.nodup_cons.2 ⟨fun mem => (mem_put mem).elim other fresh, ih later⟩

def push (g : ChangeGroups) (found : Id × Change) : ChangeGroups :=
  ⟨put found.1 found.2 g.groups, put_distinct _ _ g.distinct⟩

/-- The changes that were found, by their records. -/
def gather (found : List (Id × Change)) : ChangeGroups :=
  found.foldl push empty

/-- The group of a record. A record without one has no changes. -/
def of (g : ChangeGroups) (id : Id) : List Change :=
  ((g.groups.find? (·.1 = id)).map (·.2)).getD []

/-- Takes a record's group out. -/
def take (g : ChangeGroups) (id : Id) : List Change × ChangeGroups :=
  (g.of id, ⟨g.groups.filter (·.1 ≠ id),
    List.Pairwise.sublist (List.Sublist.map _ List.filter_sublist) g.distinct⟩)

/-- Hands each record its group. Of two records with one identifier the first takes the changes. -/
def handOut : ChangeGroups → List Record → List Record
  | _, [] => []
  | g, r :: rest =>
    let (changes, left) := g.take r.id
    r.withChanges changes :: handOut left rest

end ChangeGroups

namespace Record

/-- The changes among those found that belong to a record, in the order in which they were found. -/
def changesOf (found : List (Id × Change)) (id : Id) : List Change :=
  ((ChangeGroups.gather found).take id).1

/-- Records with the changes found for them. -/
def attach (found : List (Id × Change)) (records : List Record) : List Record :=
  (ChangeGroups.gather found).handOut records

end Record

/-- New values for groups of a record's fields; a group that is not selected stays. -/
structure RecordUpdate where
  labels : Option TextMap
  resource : Option Resource
  operation : Option Operation
  actor : Option Actor
deriving DecidableEq, Inhabited

namespace RecordUpdate

def isEmpty (u : RecordUpdate) : Bool :=
  u.labels.isNone && u.resource.isNone && u.operation.isNone && u.actor.isNone

end RecordUpdate

/-- Conditions on records, all of which have to hold. An empty text restricts nothing. -/
structure RecordFilter where
  labels : TextMap
  resourceKind : Option String
  resourceId : Option String
  operationKind : Option String
  operationId : Option String
  timeFrom : Option Instant
  timeTo : Option Instant
  actorKind : Option String
  actorId : Option String
deriving DecidableEq, Inhabited

end AuditTrail
