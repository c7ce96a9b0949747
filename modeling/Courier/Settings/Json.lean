import Courier.Json.Decode
import Courier.Settings.Basic

/-!
# Settings as JSON

Every structure of settings is a record: it is written with all its fields in a fixed order, and
read from any of them, a field that is left out taking its default value.
-/

namespace Courier

open Json (Value Document)

/-- Why a text yields no settings. -/
inductive Settings.ReadFailure where
  /-- The text is no document, or a part of it does not denote a setting. -/
  | malformed
  /-- The settings are unusable. -/
  | unusable (defect : Settings.Defect)
deriving DecidableEq

/-! ## Writing -/

/-- A number of 64 bits as a value. -/
def Json.Value.ofUInt64 (n : UInt64) : Value := .natural n.toNat

/-- A number of 32 bits as a value. -/
def Json.Value.ofUInt32 (n : UInt32) : Value := .natural n.toNat

/-- The settings of a mailbox as a value. -/
def QueueSettings.toValue (s : QueueSettings) : Value :=
  .object [
    ("auto_requeue", .bool s.autoRequeue),
    ("ack_timeout_ms", .ofUInt64 s.ackTimeoutMs),
    ("requeue_period_ms", .ofUInt64 s.requeuePeriodMs),
    ("queue_limit", .optional .ofUInt64 s.queueLimit)]

/-- A policy as a value. -/
def BackoffPolicy.toValue (p : BackoffPolicy) : Value :=
  .object [
    ("minimum_backoff_ms", .ofUInt64 p.minimumMs),
    ("maximum_backoff_ms", .ofUInt64 p.maximumMs),
    ("failures_before_dropping_batch", .ofUInt32 p.dropBatchAfter),
    ("failures_before_dropping_queue", .ofUInt32 p.dropQueueAfter)]

/-- The settings of a collector as a value. -/
def BatchSettings.toValue (s : BatchSettings) : Value :=
  .object [
    ("batch_size_limit", .ofUInt64 s.batchSizeLimit),
    ("period_ms", .ofUInt64 s.periodMs),
    ("queue_limit", .optional .ofUInt64 s.queueLimit),
    ("backoff", s.backoff.toValue)]

/-- All settings as a value. -/
def Settings.toValue (s : Settings) : Value :=
  .object [("queue", s.queue.toValue), ("batching", s.batching.toValue)]

/-! ## Reading -/

/-- The settings of a mailbox. -/
def QueueSettings.ofDocument? (d : Document) : Option QueueSettings :=
  match d.fields? ["auto_requeue", "ack_timeout_ms", "requeue_period_ms", "queue_limit"] with
  | some [autoRequeue, ackTimeoutMs, requeuePeriodMs, queueLimit] => do
    let base : QueueSettings := {}
    some {
      autoRequeue := ← Document.fieldOr base.autoRequeue (·.bool?) autoRequeue
      ackTimeoutMs := ← Document.fieldOr base.ackTimeoutMs (·.uint64?) ackTimeoutMs
      requeuePeriodMs := ← Document.fieldOr base.requeuePeriodMs (·.uint64?) requeuePeriodMs
      queueLimit := ← Document.fieldOr base.queueLimit (·.optional? (·.uint64?)) queueLimit }
  | _ => none

/-- A policy. -/
def BackoffPolicy.ofDocument? (d : Document) : Option BackoffPolicy :=
  match d.fields? ["minimum_backoff_ms", "maximum_backoff_ms", "failures_before_dropping_batch",
    "failures_before_dropping_queue"] with
  | some [minimumMs, maximumMs, dropBatchAfter, dropQueueAfter] => do
    let base : BackoffPolicy := {}
    some {
      minimumMs := ← Document.fieldOr base.minimumMs (·.uint64?) minimumMs
      maximumMs := ← Document.fieldOr base.maximumMs (·.uint64?) maximumMs
      dropBatchAfter := ← Document.fieldOr base.dropBatchAfter (·.uint32?) dropBatchAfter
      dropQueueAfter := ← Document.fieldOr base.dropQueueAfter (·.uint32?) dropQueueAfter }
  | _ => none

/-- The settings of a collector. -/
def BatchSettings.ofDocument? (d : Document) : Option BatchSettings :=
  match d.fields? ["batch_size_limit", "period_ms", "queue_limit", "backoff"] with
  | some [batchSizeLimit, periodMs, queueLimit, backoff] => do
    let base : BatchSettings := {}
    some {
      batchSizeLimit := ← Document.fieldOr base.batchSizeLimit (·.uint64?) batchSizeLimit
      periodMs := ← Document.fieldOr base.periodMs (·.uint64?) periodMs
      queueLimit := ← Document.fieldOr base.queueLimit (·.optional? (·.uint64?)) queueLimit
      backoff := ← Document.fieldOr base.backoff BackoffPolicy.ofDocument? backoff }
  | _ => none

/-- All settings. -/
def Settings.ofDocument? (d : Document) : Option Settings :=
  match d.fields? ["queue", "batching"] with
  | some [queue, batching] => do
    let base : Settings := {}
    some {
      queue := ← Document.fieldOr base.queue QueueSettings.ofDocument? queue
      batching := ← Document.fieldOr base.batching BatchSettings.ofDocument? batching }
  | _ => none

/-- The settings themselves, unless they have a defect. -/
def Settings.check (s : Settings) : Except Settings.Defect Settings :=
  match s.defect? with
  | some defect => .error defect
  | none => .ok s

/-- The settings that a JSON text writes, if they are usable. -/
def Settings.parse (text : String) : Except Settings.ReadFailure Settings :=
  match (Document.read? text).bind Settings.ofDocument? with
  | none => .error .malformed
  | some s => s.check.mapError .unusable

end Courier
