import AuditTrail.Page
import AuditTrail.Proofs.Id.Codec
import AuditTrail.Proofs.Json.Layout
import AuditTrail.Proofs.Text.Base64
import AuditTrail.Proofs.Text.Utf8
import AuditTrail.Proofs.Time.Relaxed

/-! A cursor is read back from its token, and no token but that of the empty cursor is empty. -/
namespace AuditTrail

open Json

namespace Page.Format

variable {α : Type} {f : Format α} {c : α}

/-- What a token comes to depends on its document alone. -/
theorem read?_encode (filled : f.isEmpty c = false) :
    f.read? (f.encode c) = (f.layout.codec.read? (f.document c).source).filter f.isComplete := by
  have text : (f.document c).text.toList = write (f.document c) := String.toList_ofList
  simp only [read?, encode, filled, Bool.false_eq_true, if_false, String.toList_ofList,
    Base64.decode?_encode, Utf8.units_encode, text, read?_units, Option.bind_eq_bind,
    Option.bind_some]
  cases f.layout.codec.read? (f.document c).source with
  | none => rfl
  | some d => rw [Option.bind_some, Option.filter_some]

theorem encode_ne_empty (filled : f.isEmpty c = false) : f.encode c ≠ "" := by
  intro empty
  have chars := congrArg String.toList empty
  simp only [encode, filled, Bool.false_eq_true, if_false, String.toList_ofList,
    String.toList_empty] at chars
  have bytes := Base64.decode?_encode (Utf8.encode (f.document c).text)
  rw [chars] at bytes
  have units := Utf8.units_encode (f.document c).text
  rw [← Option.some.inj bytes] at units
  have read := read?_units (f.document c)
  rw [← String.toList_ofList (l := write (f.document c)), ← Json.text, ← units] at read
  contradiction

theorem encode_eq_empty_iff : f.encode c = "" ↔ f.isEmpty c = true := by
  cases empty : f.isEmpty c with
  | true => exact ⟨fun _ => rfl, fun _ => if_pos empty⟩
  | false => exact ⟨fun none => absurd none (encode_ne_empty empty), fun _ => by contradiction⟩

theorem decode_encode_of_filled (filled : f.isEmpty c = false) (complete : f.isComplete c = true)
    (back : f.layout.codec.read? (f.document c).source = some c) :
    f.decode (f.encode c) = .ok c := by
  rw [decode, if_neg (encode_ne_empty filled), read?_encode filled, back, Option.filter_some,
    if_pos complete]

end Page.Format

/-! The documents of cursors -/

theorem read?_optional {α : Type} {codec : Codec α} {a : α} {s : Source} (some : s ≠ .null)
    (back : codec.read? s = .some a) : codec.optional.read? s = .some (.some a) := by
  cases s with
  | null => contradiction
  | _ => exact congrArg (Option.map Option.some) back

theorem read?_optional_id (id : Id) :
    Id.codec.optional.read? (Id.codec.write id).source = some (some id) :=
  read?_optional (fun same => by cases same) (Id.read?_codec id)

theorem read?_optional_instant {t : Instant} (proper : t.Proper)
    (range : Instant.isYear t.year = true) :
    Instant.codec.optional.read? (Instant.codec.write t).source = some (some t) := by
  refine read?_optional (fun same => by cases same) ?_
  simp only [Instant.codec, source, textual, textOf?_written, Option.bind_some,
    Instant.readRelaxed?_short proper range]

namespace ProjectCursor

theorem read?_document (id : Id) :
    format.layout.codec.read? (format.document ⟨some id⟩).source = some ⟨some id⟩ := by
  have document : format.document ⟨some id⟩ = .object [(idField, Id.codec.write id)] := rfl
  rw [document, read?_object]
  simp [format, Field.of, memberOf?, readFields, Field.apply, read?_optional_id]

theorem encode_eq_empty_iff (c : ProjectCursor) : c.encode = "" ↔ c.lastId = none :=
  Page.Format.encode_eq_empty_iff.trans Option.isNone_iff_eq_none

theorem decode_encode (c : ProjectCursor) : decode c.encode = .ok c := by
  rcases c with ⟨_ | id⟩
  · rfl
  · exact Page.Format.decode_encode_of_filled (f := format) rfl rfl (read?_document id)

end ProjectCursor

namespace RecordCursor

variable {t : Instant}

theorem read?_document (proper : t.Proper) (range : Instant.isYear t.year = true) (id : Id) :
    format.layout.codec.read? (format.document ⟨some t, some id⟩).source
      = some ⟨some t, some id⟩ := by
  have document : format.document ⟨some t, some id⟩ = .object
      [("lot", Instant.codec.write t), (ProjectCursor.idField, Id.codec.write id)] := rfl
  rw [document, read?_object]
  simp [format, Field.of, ProjectCursor.idField, memberOf?, readFields, Field.apply,
    read?_optional_id, read?_optional_instant proper range]

theorem encode_ne_empty (t : Instant) (id : Id) : encode ⟨some t, some id⟩ ≠ "" :=
  Page.Format.encode_ne_empty (f := format) rfl

theorem decode_encode (proper : t.Proper) (range : Instant.isYear t.year = true) (id : Id) :
    decode (encode ⟨some t, some id⟩) = .ok ⟨some t, some id⟩ :=
  Page.Format.decode_encode_of_filled (f := format) rfl rfl (read?_document proper range id)

end RecordCursor

end AuditTrail
