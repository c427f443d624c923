import AuditTrail.Json.Codec
import AuditTrail.Limits
/-!
Settings as JSON documents. Every member may be left out and then has its default, apart from the
size in the limit of a single text or of bytes.
-/
namespace AuditTrail

open Json

/-- A size in bytes, as an object with one required member. -/
def sizeCodec : Codec Nat :=
  Layout.codec
    { start := 0
      fields :=
        [{ Field.of "maxSizeBytes" (unsigned max64) id (fun n _ => n) with required := true }] }

def MapLimits.layout : Layout MapLimits where
  start := MapLimits.default
  fields := [
    .of "keyMaxSizeBytes" (unsigned max64) MapLimits.key (fun n l => { l with key := n }),
    .of "valueMaxSizeBytes" (unsigned max64) MapLimits.value (fun n l => { l with value := n }),
    .of "totalMaxSizeBytes" (unsigned max64) MapLimits.total (fun n l => { l with total := n })]

def ChangeLimits.layout : Layout ChangeLimits where
  start := ChangeLimits.default
  fields := [
    .of "totalMaxCount" (unsigned max64) ChangeLimits.count (fun n l => { l with count := n }),
    .of "name" sizeCodec ChangeLimits.name (fun n l => { l with name := n }),
    .of "description" sizeCodec ChangeLimits.description (fun n l => { l with description := n }),
    .of "oldValue" sizeCodec ChangeLimits.oldValue (fun n l => { l with oldValue := n }),
    .of "newValue" sizeCodec ChangeLimits.newValue (fun n l => { l with newValue := n })]

def ResourceLimits.layout : Layout ResourceLimits where
  start := ResourceLimits.default
  fields := [
    .of "type" sizeCodec ResourceLimits.kind (fun n l => { l with kind := n }),
    .of "id" sizeCodec ResourceLimits.id (fun n l => { l with id := n }),
    .of "metadata" MapLimits.layout.codec ResourceLimits.metadata
      (fun m l => { l with metadata := m }),
    .of "changes" ChangeLimits.layout.codec ResourceLimits.changes
      (fun c l => { l with changes := c })]

/-- The layout of the limits of an operation or an actor, which differ in their defaults. -/
def PartLimits.layout (start : PartLimits) : Layout PartLimits where
  start := start
  fields := [
    .of "type" sizeCodec PartLimits.kind (fun n l => { l with kind := n }),
    .of "id" sizeCodec PartLimits.id (fun n l => { l with id := n }),
    .of "metadata" MapLimits.layout.codec PartLimits.metadata (fun m l => { l with metadata := m })]

def RecordLimits.layout : Layout RecordLimits where
  start := RecordLimits.default
  fields := [
    .of "labels" MapLimits.layout.codec RecordLimits.labels (fun m l => { l with labels := m }),
    .of "resource" ResourceLimits.layout.codec RecordLimits.resource
      (fun r l => { l with resource := r }),
    .of "operation" (PartLimits.layout .operationDefault).codec RecordLimits.operation
      (fun o l => { l with operation := o }),
    .of "actor" (PartLimits.layout .actorDefault).codec RecordLimits.actor
      (fun a l => { l with actor := a })]

def RecordSettings.layout : Layout RecordSettings where
  start := RecordSettings.default
  fields := [
    .of "updateEnabled" truth RecordSettings.updateEnabled
      (fun b s => { s with updateEnabled := b }),
    .of "deleteEnabled" truth RecordSettings.deleteEnabled
      (fun b s => { s with deleteEnabled := b }),
    .of "restrictions" RecordLimits.layout.codec RecordSettings.limits
      (fun l s => { s with limits := l })]

def Settings.layout : Layout Settings where
  start := Settings.default
  fields := [
    .of "records" RecordSettings.layout.codec Settings.records (fun r s => { s with records := r })]

def Settings.codec : Codec Settings := Settings.layout.codec

end AuditTrail
