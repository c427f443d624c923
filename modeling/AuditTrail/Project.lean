import AuditTrail.Flag
import AuditTrail.Id
import AuditTrail.Time.Instant
/-!
Projects: the tenants that own records. Two flags of a project gate changes of its records.
-/
namespace AuditTrail

/-- A tenant and its gates. -/
structure Project where
  id : Id
  createTime : Instant
  displayName : String
  updateRecords : Flag
  deleteRecords : Flag
deriving DecidableEq, Inhabited

namespace Project

/-- Records may be updated unless that is explicitly forbidden. -/
def allowsUpdate (p : Project) : Bool := !p.updateRecords.isOff

/-- Records may be deleted only if that is explicitly allowed. -/
def allowsDelete (p : Project) : Bool := p.deleteRecords.isOn

end Project

/-- New values for a project's fields; a field that is not selected stays. -/
structure ProjectUpdate where
  displayName : Option String
  updateRecords : Option Flag
  deleteRecords : Option Flag
deriving DecidableEq, Inhabited

namespace ProjectUpdate

def isEmpty (u : ProjectUpdate) : Bool :=
  u.displayName.isNone && u.updateRecords.isNone && u.deleteRecords.isNone

end ProjectUpdate

end AuditTrail
