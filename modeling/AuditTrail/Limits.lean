/-!
Limits on the sizes of records' parts, with their defaults.
-/
namespace AuditTrail

/-- Limits of a map of texts, in bytes. -/
structure MapLimits where
  key : Nat
  value : Nat
  total : Nat
deriving DecidableEq, Repr

/-- Limits of the changes of a resource: their count, and the bytes of each part. -/
structure ChangeLimits where
  count : Nat
  name : Nat
  description : Nat
  oldValue : Nat
  newValue : Nat
deriving DecidableEq, Repr

/-- Limits of a resource. -/
structure ResourceLimits where
  kind : Nat
  id : Nat
  metadata : MapLimits
  changes : ChangeLimits
deriving DecidableEq, Repr

/-- Limits of an operation or an actor. -/
structure PartLimits where
  kind : Nat
  id : Nat
  metadata : MapLimits
deriving DecidableEq, Repr

/-- Limits of a record. -/
structure RecordLimits where
  labels : MapLimits
  resource : ResourceLimits
  operation : PartLimits
  actor : PartLimits
deriving DecidableEq, Repr

/-- Switches and limits for the records of all projects. -/
structure RecordSettings where
  updateEnabled : Bool
  deleteEnabled : Bool
  limits : RecordLimits
deriving DecidableEq, Repr

/-- All settings. -/
structure Settings where
  records : RecordSettings
deriving DecidableEq, Repr

def MapLimits.default : MapLimits := ⟨64, 256, 2048⟩

def ChangeLimits.default : ChangeLimits := ⟨20, 256, 1024, 4096, 4096⟩

def ResourceLimits.default : ResourceLimits :=
  ⟨256, 256, MapLimits.default, ChangeLimits.default⟩

def PartLimits.operationDefault : PartLimits := ⟨256, 512, MapLimits.default⟩

def PartLimits.actorDefault : PartLimits := ⟨256, 256, MapLimits.default⟩

def RecordLimits.default : RecordLimits :=
  ⟨MapLimits.default, ResourceLimits.default, PartLimits.operationDefault, PartLimits.actorDefault⟩

/-- Updates and deletes are off unless somebody turns them on. -/
def RecordSettings.default : RecordSettings := ⟨false, false, RecordLimits.default⟩

def Settings.default : Settings := ⟨RecordSettings.default⟩

end AuditTrail
