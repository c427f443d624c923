/-!
Switches that may also be left open. What an open switch means is up to the place that asks, so
both answers have a test of their own.
-/
namespace AuditTrail

/-- A switch that is on, off or left open. -/
inductive Flag where
  | unset
  | on
  | off
deriving DecidableEq, Repr, Inhabited

namespace Flag

def isOn (f : Flag) : Bool := f = on

def isOff (f : Flag) : Bool := f = off

def isUnset (f : Flag) : Bool := f = unset

def toOption : Flag → Option Bool
  | unset => none
  | on => some true
  | off => some false

def ofOption : Option Bool → Flag
  | none => unset
  | some true => on
  | some false => off

@[simp] theorem ofOption_toOption (f : Flag) : ofOption f.toOption = f := by
  cases f <;> rfl

@[simp] theorem toOption_ofOption (b : Option Bool) : (ofOption b).toOption = b := by
  rcases b with _ | _ | _ <;> rfl

end Flag

end AuditTrail
