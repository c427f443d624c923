import AuditTrail.Proofs.Embedded.TimeRange
import AuditTrail.Proofs.Text.Utf8

/-! The texts that tables are ordered by. Identifiers and the instants of the years 0 to 9999 are
written without loss, and the bytes of the texts come in the order of what is written, so that pages
and ranges over texts are pages and ranges over identifiers and instants. -/
namespace AuditTrail

namespace Instant

open Positional

variable {t : Instant}

end Instant

namespace Embedded

end Embedded

end AuditTrail
