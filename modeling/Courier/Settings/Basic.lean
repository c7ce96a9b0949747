import Courier.Time.Span

/-!
# Settings

What a mailbox, a collector and its backoff are configured with: the default values, what makes a
value unusable, and the steps that change one setting.

The checks run in a fixed order and name the first defect that they find, so a value has at most
one defect to report; it is `Valid` if there is none.
-/

namespace Courier

/-! ## The mailbox -/

/-- How a mailbox treats events that are handed out and not acknowledged. -/
structure QueueSettings where
  /-- Whether overdue events return on their own. -/
  autoRequeue : Bool := false
  /-- How many milliseconds an event may stay unacknowledged. -/
  ackTimeoutMs : UInt64 := 60000
  /-- How many milliseconds lie between two passes that return overdue events. -/
  requeuePeriodMs : UInt64 := 30000
  /-- The most events that may be available, if there is a limit. -/
  queueLimit : Option UInt64 := none
deriving DecidableEq

namespace QueueSettings

/-- What makes the settings of a mailbox unusable. -/
inductive Defect where
  | noAckTimeout
  | noRequeuePeriod
  | noRoom
deriving DecidableEq

/-- What a defect says. -/
def Defect.text : Defect → String
  | noAckTimeout => "ack_timeout_ms must be greater than 0"
  | noRequeuePeriod => "requeue_period_ms must be greater than 0 when auto_requeue is on"
  | noRoom => "queue_limit must be greater than 0"

/-- The first defect, if there is one. -/
def defect? (s : QueueSettings) : Option Defect :=
  if s.ackTimeoutMs = 0 then some .noAckTimeout
  else if s.autoRequeue ∧ s.requeuePeriodMs = 0 then some .noRequeuePeriod
  else if s.queueLimit = some 0 then some .noRoom
  else none

/-- Settings without a defect. -/
abbrev Valid (s : QueueSettings) : Prop := s.defect? = none

/-- How long an event may stay unacknowledged. -/
def ackTimeout (s : QueueSettings) : Span := .ofMillis s.ackTimeoutMs

/-- The time between two passes that return overdue events. -/
def requeuePeriod (s : QueueSettings) : Span := .ofMillis s.requeuePeriodMs

/-- Sets the time an event may stay unacknowledged. -/
def withAckTimeout (s : QueueSettings) (timeout : Span) : QueueSettings :=
  { s with ackTimeoutMs := timeout.toMillis }

/-- Has overdue events return on their own, with a pass every `period`. -/
def withAutoRequeue (s : QueueSettings) (period : Span) : QueueSettings :=
  { s with autoRequeue := true, requeuePeriodMs := period.toMillis }

/-- Limits the number of available events. -/
def withQueueLimit (s : QueueSettings) (limit : UInt64) : QueueSettings :=
  { s with queueLimit := some limit }

end QueueSettings

/-! ## The backoff -/

/-- How a collector slows down after failed flushes, and when it gives up on items. -/
structure BackoffPolicy where
  /-- The shortest wait after a failure, in milliseconds. -/
  minimumMs : UInt64 := 5000
  /-- The longest wait after a failure, in milliseconds. -/
  maximumMs : UInt64 := 600000
  /-- The number of failures in a row at which the staged batch is discarded. -/
  dropBatchAfter : UInt32 := 8
  /-- The number of failures in a row at which the backlog is discarded. -/
  dropQueueAfter : UInt32 := 10
deriving DecidableEq

namespace BackoffPolicy

/-- What makes a policy unusable. -/
inductive Defect where
  | minimumAboveMaximum
  | batchNeverKept
  | queueBeforeBatch
deriving DecidableEq

/-- What a defect says. -/
def Defect.text : Defect → String
  | minimumAboveMaximum => "minimum_backoff_ms must not exceed maximum_backoff_ms"
  | batchNeverKept => "failures_before_dropping_batch must be greater than 0"
  | queueBeforeBatch =>
    "failures_before_dropping_queue must be at least failures_before_dropping_batch"

/-- The first defect, if there is one. -/
def defect? (p : BackoffPolicy) : Option Defect :=
  if p.maximumMs < p.minimumMs then some .minimumAboveMaximum
  else if p.dropBatchAfter = 0 then some .batchNeverKept
  else if p.dropQueueAfter < p.dropBatchAfter then some .queueBeforeBatch
  else none

/-- The shortest wait after a failure. -/
def minimum (p : BackoffPolicy) : Span := .ofMillis p.minimumMs

/-- The longest wait after a failure. -/
def maximum (p : BackoffPolicy) : Span := .ofMillis p.maximumMs

end BackoffPolicy

/-! ## The collector -/

/-- How a collector forms batches. -/
structure BatchSettings where
  /-- The most items in one batch. -/
  batchSizeLimit : UInt64 := 1000
  /-- The time between two flushes, in milliseconds. -/
  periodMs : UInt64 := 2000
  /-- The most items that may wait, if there is a limit. -/
  queueLimit : Option UInt64 := none
  /-- What happens after failed flushes. -/
  backoff : BackoffPolicy := {}
deriving DecidableEq

namespace BatchSettings

/-- What makes the settings of a collector unusable. -/
inductive Defect where
  | noBatchSize
  | noPeriod
  | noRoom
  | backoff (defect : BackoffPolicy.Defect)
deriving DecidableEq

/-- What a defect says. -/
def Defect.text : Defect → String
  | noBatchSize => "batch_size_limit must be greater than 0"
  | noPeriod => "period_ms must be greater than 0"
  | noRoom => "queue_limit must be greater than 0"
  | backoff defect => "backoff invalid: " ++ defect.text

/-- The first defect, if there is one. -/
def defect? (s : BatchSettings) : Option Defect :=
  if s.batchSizeLimit = 0 then some .noBatchSize
  else if s.periodMs = 0 then some .noPeriod
  else if s.queueLimit = some 0 then some .noRoom
  else s.backoff.defect?.map .backoff

/-- Settings without a defect. -/
abbrev Valid (s : BatchSettings) : Prop := s.defect? = none

/-- Batches of at most `batchSizeLimit` items every `period`, and the defaults for the rest. -/
def every (batchSizeLimit : UInt64) (period : Span) : BatchSettings :=
  { batchSizeLimit, periodMs := period.toMillis }

/-- The time between two flushes. -/
def period (s : BatchSettings) : Span := .ofMillis s.periodMs

/-- Limits the number of waiting items. -/
def withQueueLimit (s : BatchSettings) (limit : UInt64) : BatchSettings :=
  { s with queueLimit := some limit }

/-- Sets what happens after failed flushes. -/
def withBackoff (s : BatchSettings) (backoff : BackoffPolicy) : BatchSettings :=
  { s with backoff }

/-- A usable batch holds at least one item. -/
theorem Valid.batchSizeLimit_pos {s : BatchSettings} (h : s.Valid) :
    0 < s.batchSizeLimit.toNat := by
  rw [Valid, defect?] at h
  split at h
  · cases h
  · next hz =>
    have : s.batchSizeLimit.toNat ≠ 0 := fun e => hz (UInt64.toNat_inj.1 (by simpa using e))
    omega

/-- Between two flushes some time passes. -/
theorem Valid.period_pos {s : BatchSettings} (h : s.Valid) : 0 < s.period.toNanos := by
  rw [Valid, defect?] at h
  split at h
  · cases h
  · split at h
    · cases h
    · next hz =>
      have : s.periodMs.toNat ≠ 0 := fun e => hz (UInt64.toNat_inj.1 (by simpa using e))
      rw [period, Span.toNanos_ofMillis, nanosPerMilli]
      omega

/-- A usable policy gives no batch up before the first failure, and the backlog not before the
batch. -/
theorem Valid.thresholds {s : BatchSettings} (h : s.Valid) :
    0 < s.backoff.dropBatchAfter ∧ s.backoff.dropBatchAfter ≤ s.backoff.dropQueueAfter := by
  have hpolicy : s.backoff.defect? = none := by
    unfold Valid defect? at h
    split at h
    · cases h
    · split at h
      · cases h
      · split at h
        · cases h
        · exact Option.map_eq_none_iff.1 h
  unfold BackoffPolicy.defect? at hpolicy
  split at hpolicy
  · cases hpolicy
  · split at hpolicy
    · cases hpolicy
    · next hpos =>
      split at hpolicy
      · cases hpolicy
      · next horder =>
        refine ⟨UInt32.pos_iff_ne_zero.2 hpos, ?_⟩
        exact UInt32.not_lt.1 horder

end BatchSettings

/-! ## Both -/

/-- The settings of a mailbox and of a collector. -/
structure Settings where
  queue : QueueSettings := {}
  batching : BatchSettings := {}
deriving DecidableEq

namespace Settings

/-- What makes settings unusable. -/
inductive Defect where
  | queue (defect : QueueSettings.Defect)
  | batching (defect : BatchSettings.Defect)
deriving DecidableEq

/-- What a defect says: its section, and what is wrong there. -/
def Defect.text : Defect → String
  | queue defect => "queue invalid: " ++ defect.text
  | batching defect => "batching invalid: " ++ defect.text

/-- The first defect, if there is one; the mailbox comes first. -/
def defect? (s : Settings) : Option Defect :=
  match s.queue.defect? with
  | some defect => some (.queue defect)
  | none => s.batching.defect?.map .batching

end Settings

/-- Between two passes of a mailbox that requeues on its own some time passes. -/
theorem QueueSettings.Valid.requeuePeriod_pos {s : QueueSettings} (h : s.Valid)
    (auto : s.autoRequeue = true) : 0 < s.requeuePeriod.toNanos := by
  rw [Valid, defect?] at h
  split at h
  · cases h
  · split at h
    · cases h
    · next hz =>
      have : s.requeuePeriodMs.toNat ≠ 0 := fun e =>
        hz ⟨auto, UInt64.toNat_inj.1 (by simpa using e)⟩
      rw [requeuePeriod, Span.toNanos_ofMillis, nanosPerMilli]
      omega

/-- An event may stay unacknowledged for some time. -/
theorem QueueSettings.Valid.ackTimeout_pos {s : QueueSettings} (h : s.Valid) :
    0 < s.ackTimeout.toNanos := by
  rw [Valid, defect?] at h
  split at h
  · cases h
  · next hz =>
    have : s.ackTimeoutMs.toNat ≠ 0 := fun e => hz (UInt64.toNat_inj.1 (by simpa using e))
    rw [ackTimeout, Span.toNanos_ofMillis, nanosPerMilli]
    omega

end Courier
