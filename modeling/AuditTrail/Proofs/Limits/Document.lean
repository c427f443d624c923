import AuditTrail.Limits.Document
import AuditTrail.Proofs.Json.Layout

/-! Settings and their documents. Each layout is regular, and the default of every part is the value
from which the reader of that part starts. -/
namespace AuditTrail

open Json

/-! Numbers that are within their types -/

structure MapLimits.Fits (l : MapLimits) : Prop where
  key : l.key ≤ max64
  value : l.value ≤ max64
  total : l.total ≤ max64

structure ChangeLimits.Fits (l : ChangeLimits) : Prop where
  count : l.count ≤ max64
  name : l.name ≤ max64
  description : l.description ≤ max64
  oldValue : l.oldValue ≤ max64
  newValue : l.newValue ≤ max64

structure ResourceLimits.Fits (l : ResourceLimits) : Prop where
  kind : l.kind ≤ max64
  id : l.id ≤ max64
  metadata : l.metadata.Fits
  changes : l.changes.Fits

structure PartLimits.Fits (l : PartLimits) : Prop where
  kind : l.kind ≤ max64
  id : l.id ≤ max64
  metadata : l.metadata.Fits

structure RecordLimits.Fits (l : RecordLimits) : Prop where
  labels : l.labels.Fits
  resource : l.resource.Fits
  operation : l.operation.Fits
  actor : l.actor.Fits

def Settings.Fits (s : Settings) : Prop := s.records.limits.Fits

theorem MapLimits.fits_default : MapLimits.default.Fits := by
  constructor <;> decide

theorem ChangeLimits.fits_default : ChangeLimits.default.Fits := by
  constructor <;> decide

theorem ResourceLimits.fits_default : ResourceLimits.default.Fits :=
  ⟨by decide, by decide, MapLimits.fits_default, ChangeLimits.fits_default⟩

theorem RecordLimits.fits_default : RecordLimits.default.Fits where
  labels := MapLimits.fits_default
  resource := ResourceLimits.fits_default
  operation := ⟨by decide, by decide, MapLimits.fits_default⟩
  actor := ⟨by decide, by decide, MapLimits.fits_default⟩

/-! Sizes -/

theorem sizeCodec_write (n : Nat) : sizeCodec.write n = .object [(sizeName, .number n)] := rfl

theorem sizeCodec_injective : Function.Injective sizeCodec.write := by
  intro a b same
  simpa [sizeCodec_write] using same

theorem sizeCodec_read?_write {n : Nat} (range : n ≤ max64) :
    sizeCodec.read? (sizeCodec.write n).source = some n := by
  have number := Codec.read?_unsigned range
  rw [sizeCodec_write, sizeCodec, read?_object]
  simp [Field.of, sizeName, memberOf?, readFields, Field.apply, number]

theorem losesSize_size_iff {removed : Paths} {n : Nat} :
    LosesSize removed (sizeCodec.write n) ↔ removed [sizeName] = true := by
  constructor
  · rintro (⟨-, lost⟩ | ⟨member, -, loses⟩)
    · exact lost
    · obtain ⟨-, rfl⟩ := Prod.mk.inj (List.mem_singleton.mp member)
      cases loses
  · exact .here (List.mem_singleton.mpr rfl)

/-- The size may not be missing from the limit on it. -/
theorem fills_size {n : Nat} (range : n ≤ max64) (d : Nat) : sizeCodec.Fills d n := by
  constructor
  · intro removed loses
    have lost := losesSize_size_iff.mp loses
    simp only [sizeCodec_write, without, withoutMembers, lost, if_true]
    rfl
  · intro removed sized
    rw [losesSize_size_iff, Bool.not_eq_true] at sized
    refine ⟨n, ?_, ?_⟩
    · rw [← sizeCodec_read?_write range]
      simp [sizeCodec_write, without, withoutMembers, sized]
    · simp [sizeCodec_write, Json.patched, patchedMembers, sized]

/-! Layouts -/

theorem MapLimits.regular : MapLimits.layout.Regular where
  names := by decide
  defaulted := by simp [layout, Field.of, sizeName]
  apart := by simp [layout, Field.Apart, Field.keeps_of]
  determined := by
    rintro ⟨⟩ ⟨⟩
    simp [layout, Field.of, unsigned]

theorem MapLimits.injective : Function.Injective MapLimits.layout.codec.write :=
  layout.write_injective regular

theorem MapLimits.fills {l : MapLimits} (fits : l.Fits) : layout.codec.Fills default l := by
  refine layout.fills regular ?_
  simp [layout, Field.fills_of, Codec.fills_unsigned, fits.key, fits.value, fits.total]

theorem ChangeLimits.regular : ChangeLimits.layout.Regular where
  names := by decide
  defaulted := by simp [layout, Field.of, sizeName]
  apart := by simp [layout, Field.Apart, Field.keeps_of]
  determined := by
    rintro ⟨⟩ ⟨⟩
    simp [layout, Field.of, unsigned, sizeCodec_injective.eq_iff]

theorem ChangeLimits.injective : Function.Injective ChangeLimits.layout.codec.write :=
  layout.write_injective regular

theorem ChangeLimits.fills {l : ChangeLimits} (fits : l.Fits) : layout.codec.Fills default l := by
  refine layout.fills regular ?_
  simp [layout, Field.fills_of, Codec.fills_unsigned, fills_size, fits.count, fits.name,
    fits.description, fits.oldValue, fits.newValue]

theorem ResourceLimits.regular : ResourceLimits.layout.Regular where
  names := by decide
  defaulted := by simp [layout, Field.of, sizeName]
  apart := by simp [layout, Field.Apart, Field.keeps_of]
  determined := by
    rintro ⟨⟩ ⟨⟩
    simp [layout, Field.of, sizeCodec_injective.eq_iff, MapLimits.injective.eq_iff,
      ChangeLimits.injective.eq_iff]

theorem ResourceLimits.injective : Function.Injective ResourceLimits.layout.codec.write :=
  layout.write_injective regular

theorem ResourceLimits.fills {l : ResourceLimits} (fits : l.Fits) :
    layout.codec.Fills default l := by
  refine layout.fills regular ?_
  simp [layout, default, Field.fills_of, fills_size, fits.kind, fits.id, MapLimits.fills fits.metadata,
    ChangeLimits.fills fits.changes]

theorem PartLimits.regular (start : PartLimits) : (PartLimits.layout start).Regular where
  names := by simp [layout, Field.of]
  defaulted := by simp [layout, Field.of, sizeName]
  apart := by simp [layout, Field.Apart, Field.keeps_of]
  determined := by
    rintro ⟨⟩ ⟨⟩
    simp [layout, Field.of, sizeCodec_injective.eq_iff, MapLimits.injective.eq_iff]

theorem PartLimits.injective (start : PartLimits) :
    Function.Injective (PartLimits.layout start).codec.write :=
  (layout start).write_injective (regular start)

/-- The default of a part may be any that has the defaults of metadata. -/
theorem PartLimits.fills {l : PartLimits} (start : PartLimits)
    (plain : start.metadata = MapLimits.default) (fits : l.Fits) :
    (layout start).codec.Fills start l := by
  refine (layout start).fills (regular start) ?_
  simp [layout, plain, Field.fills_of, fills_size, fits.kind, fits.id,
    MapLimits.fills fits.metadata]

theorem RecordLimits.regular : RecordLimits.layout.Regular where
  names := by decide
  defaulted := by simp [layout, Field.of, sizeName]
  apart := by simp [layout, Field.Apart, Field.keeps_of]
  determined := by
    rintro ⟨⟩ ⟨⟩
    simp [layout, Field.of, MapLimits.injective.eq_iff, ResourceLimits.injective.eq_iff,
      (PartLimits.injective _).eq_iff]

theorem RecordLimits.injective : Function.Injective RecordLimits.layout.codec.write :=
  layout.write_injective regular

theorem RecordLimits.fills {l : RecordLimits} (fits : l.Fits) : layout.codec.Fills default l := by
  refine layout.fills regular ?_
  simp [layout, default, Field.fills_of, MapLimits.fills fits.labels,
    ResourceLimits.fills fits.resource, PartLimits.fills .operationDefault rfl fits.operation,
    PartLimits.fills .actorDefault rfl fits.actor]

theorem RecordSettings.regular : RecordSettings.layout.Regular where
  names := by decide
  defaulted := by simp [layout, Field.of, sizeName]
  apart := by simp [layout, Field.Apart, Field.keeps_of]
  determined := by
    rintro ⟨⟩ ⟨⟩
    simp [layout, Field.of, truth, RecordLimits.injective.eq_iff]

theorem RecordSettings.injective : Function.Injective RecordSettings.layout.codec.write :=
  layout.write_injective regular

theorem RecordSettings.fills {s : RecordSettings} (fits : s.limits.Fits) :
    layout.codec.Fills default s := by
  refine layout.fills regular ?_
  simp [layout, default, Field.fills_of, Codec.fills_truth, RecordLimits.fills fits]

theorem Settings.regular : Settings.layout.Regular where
  names := by decide
  defaulted := by simp [layout, Field.of, sizeName]
  apart := by simp [layout]
  determined := by
    rintro ⟨⟩ ⟨⟩
    simp [layout, Field.of, RecordSettings.injective.eq_iff]

theorem Settings.injective : Function.Injective Settings.codec.write :=
  layout.write_injective regular

theorem Settings.fills {s : Settings} (fits : s.Fits) : codec.Fills default s := by
  refine layout.fills regular ?_
  simp [layout, default, Field.fills_of, RecordSettings.fills fits]

/-- The document of all settings at their defaults. -/
def Settings.defaults : Json :=
  let size (bytes : Int) : Json := .object [("maxSizeBytes", .number bytes)]
  let map : Json := .object [("keyMaxSizeBytes", .number 64), ("valueMaxSizeBytes", .number 256),
    ("totalMaxSizeBytes", .number 2048)]
  let part (kind id : Int) : Json := .object [("type", size kind), ("id", size id), ("metadata", map)]
  .object [("records", .object [
    ("updateEnabled", .boolean false),
    ("deleteEnabled", .boolean false),
    ("restrictions", .object [
      ("labels", map),
      ("resource", .object [
        ("type", size 256),
        ("id", size 256),
        ("metadata", map),
        ("changes", .object [
          ("totalMaxCount", .number 20),
          ("name", size 256),
          ("description", size 1024),
          ("oldValue", size 4096),
          ("newValue", size 4096)])]),
      ("operation", part 256 512),
      ("actor", part 256 256)])])]

theorem Settings.write_default : codec.write default = defaults := rfl

end AuditTrail
