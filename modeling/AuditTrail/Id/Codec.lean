import AuditTrail.Id
import AuditTrail.Json.Codec
/-!
Identifiers inside JSON documents: arrays of their sixteen bytes.
-/
namespace AuditTrail.Id

open Json

/-- Sixteen numbers below 256, highest byte first. -/
def codec : Codec Id where
  write := fun id => .array (id.bytes.map fun (b : Nat) => .number b)
  read?
    | .array items => (items.mapM (unsigned 255).read?).bind ofBytes?
    | _ => none

end AuditTrail.Id
