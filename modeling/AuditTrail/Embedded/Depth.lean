import AuditTrail.Statement.Syntax
/-!
How deep the expressions of statements are. The engine refuses a statement whose expression is too
deep. Conditions of which all have to hold are joined one by one, each joint above the one before it,
so that many conditions are a deep expression even if none of them is deep.
-/
namespace AuditTrail

namespace Condition

/-- The depths of the terms of a condition. Every label is a term of its own. -/
def depths : Condition → List Nat
  | equals _ _ | below _ _ | atLeast _ _ | among _ _ => [2]
  | labelled m => m.entries.map fun _ => 4

/-- The depth of what a condition chooses from: the ids of a list, or the labels of a row. -/
def innerDepth : Condition → Nat
  | equals _ _ | below _ _ | atLeast _ _ => 0
  | among _ _ => 1
  | labelled m => if m.entries.isEmpty then 0 else 3

end Condition

/-- The depth of terms that are joined, given their depths. -/
def joinedDepth : List Nat → Nat
  | [] => 0
  | d :: ds => ds.foldl (fun joined d => max joined d + 1) d

namespace Statement

/-- The depth of the conditions of a statement. -/
def depth (s : Statement) : Nat :=
  joinedDepth (s.conditions.flatMap Condition.depths)

/-- The depth of the conditions of a statement with what they choose from below them. -/
def fullDepth (s : Statement) : Nat :=
  s.depth + (s.conditions.map Condition.innerDepth).foldl max 0

end Statement

namespace Embedded

/-- The greatest depth of an expression that the engine takes. -/
def depthLimit : Nat := 1000

end Embedded

end AuditTrail
