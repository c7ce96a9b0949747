import Courier.Proofs.Json.Records
import Courier.Settings.Json

/-!
# Settings that are written and read again

Settings are read from their text as they were, also if members of it are left out, at any of the
three levels: a field that is left out has its default, and so has everything in a section that is
left out. If what comes out has a defect, that defect is the answer.

> `parse_without`: this is so for all settings, whatever is left out.
-/

namespace Courier

open Json

section Sections

variable (gone : List String → Bool)

/-! ## Numbers -/

theorem conveys_uint64 (n : UInt64) : Conveys ((Value.ofUInt64 n).without gone) (·.uint64?) n :=
  ⟨_, reads_integer n.toNat, uint64?_numeral n⟩

theorem conveys_uint32 (n : UInt32) : Conveys ((Value.ofUInt32 n).without gone) (·.uint32?) n :=
  ⟨_, reads_integer n.toNat, uint32?_numeral n⟩

theorem conveys_limit (limit : Option UInt64) :
    Conveys ((Value.optional .ofUInt64 limit).without gone) (·.optional? (·.uint64?)) limit :=
  conveys_optional gone rfl (conveys_uint64 gone) limit

/-! ## Sections -/

/-- The settings of a mailbox with the fields that are gone at their defaults. -/
def QueueSettings.resetting (s : QueueSettings) : QueueSettings :=
  let base : QueueSettings := {}
  { autoRequeue := if gone ["auto_requeue"] then base.autoRequeue else s.autoRequeue
    ackTimeoutMs := if gone ["ack_timeout_ms"] then base.ackTimeoutMs else s.ackTimeoutMs
    requeuePeriodMs :=
      if gone ["requeue_period_ms"] then base.requeuePeriodMs else s.requeuePeriodMs
    queueLimit := if gone ["queue_limit"] then base.queueLimit else s.queueLimit }

/-- The settings of a mailbox are read as they were, with defaults for the fields that are gone. -/
theorem QueueSettings.conveys_without (s : QueueSettings) :
    Conveys (s.toValue.without gone) QueueSettings.ofDocument? (s.resetting gone) := by
  obtain ⟨d, _, _, _, _, hreads, hfields, h₁, h₂, h₃, h₄⟩ := exists_fields gone
    (by decide : ["auto_requeue", "ack_timeout_ms", "requeue_period_ms", "queue_limit"].Nodup)
    (conveys_bool _ s.autoRequeue) (conveys_uint64 _ s.ackTimeoutMs)
    (conveys_uint64 _ s.requeuePeriodMs) (conveys_limit _ s.queueLimit)
  refine ⟨d, hreads, ?_⟩
  unfold ofDocument?
  rw [hfields]
  dsimp only
  rw [h₁, h₂, h₃, h₄]
  rfl

/-- A policy with the fields that are gone at their defaults. -/
def BackoffPolicy.resetting (p : BackoffPolicy) : BackoffPolicy :=
  let base : BackoffPolicy := {}
  { minimumMs := if gone ["minimum_backoff_ms"] then base.minimumMs else p.minimumMs
    maximumMs := if gone ["maximum_backoff_ms"] then base.maximumMs else p.maximumMs
    dropBatchAfter :=
      if gone ["failures_before_dropping_batch"] then base.dropBatchAfter else p.dropBatchAfter
    dropQueueAfter :=
      if gone ["failures_before_dropping_queue"] then base.dropQueueAfter else p.dropQueueAfter }

/-- So is a policy. -/
theorem BackoffPolicy.conveys_without (p : BackoffPolicy) :
    Conveys (p.toValue.without gone) BackoffPolicy.ofDocument? (p.resetting gone) := by
  obtain ⟨d, _, _, _, _, hreads, hfields, h₁, h₂, h₃, h₄⟩ := exists_fields gone
    (by decide : ["minimum_backoff_ms", "maximum_backoff_ms", "failures_before_dropping_batch",
      "failures_before_dropping_queue"].Nodup)
    (conveys_uint64 _ p.minimumMs) (conveys_uint64 _ p.maximumMs)
    (conveys_uint32 _ p.dropBatchAfter) (conveys_uint32 _ p.dropQueueAfter)
  refine ⟨d, hreads, ?_⟩
  unfold ofDocument?
  rw [hfields]
  dsimp only
  rw [h₁, h₂, h₃, h₄]
  rfl

/-- The settings of a collector with the fields that are gone at their defaults, and its policy with
those of its own. -/
def BatchSettings.resetting (s : BatchSettings) : BatchSettings :=
  let base : BatchSettings := {}
  { batchSizeLimit := if gone ["batch_size_limit"] then base.batchSizeLimit else s.batchSizeLimit
    periodMs := if gone ["period_ms"] then base.periodMs else s.periodMs
    queueLimit := if gone ["queue_limit"] then base.queueLimit else s.queueLimit
    backoff :=
      if gone ["backoff"] then base.backoff
      else s.backoff.resetting fun path => gone ("backoff" :: path) }

/-- So are the settings of a collector, and within them its policy. -/
theorem BatchSettings.conveys_without (s : BatchSettings) :
    Conveys (s.toValue.without gone) BatchSettings.ofDocument? (s.resetting gone) := by
  obtain ⟨d, _, _, _, _, hreads, hfields, h₁, h₂, h₃, h₄⟩ := exists_fields gone
    (by decide : ["batch_size_limit", "period_ms", "queue_limit", "backoff"].Nodup)
    (conveys_uint64 _ s.batchSizeLimit) (conveys_uint64 _ s.periodMs) (conveys_limit _ s.queueLimit)
    (s.backoff.conveys_without fun path => gone ("backoff" :: path))
  refine ⟨d, hreads, ?_⟩
  unfold ofDocument?
  rw [hfields]
  dsimp only
  rw [h₁, h₂, h₃, h₄]
  rfl

/-! ## All settings -/

/-- The settings with what is gone at its default. -/
def Settings.resetting (s : Settings) : Settings :=
  let base : Settings := {}
  { queue :=
      if gone ["queue"] then base.queue
      else s.queue.resetting fun path => gone ("queue" :: path)
    batching :=
      if gone ["batching"] then base.batching
      else s.batching.resetting fun path => gone ("batching" :: path) }

/-- So are all settings, by their sections. -/
theorem Settings.conveys_without (s : Settings) :
    Conveys (s.toValue.without gone) Settings.ofDocument? (s.resetting gone) := by
  obtain ⟨queue, hreads₁, h₁⟩ := s.queue.conveys_without fun path => gone ("queue" :: path)
  obtain ⟨batching, hreads₂, h₂⟩ := s.batching.conveys_without fun path => gone ("batching" :: path)
  have hmembers : ∀ m ∈ ([⟨"queue", s.queue.toValue, queue⟩,
      ⟨"batching", s.batching.toValue, batching⟩] : List Member),
      Reads (m.without gone).value.chars m.document := by
    simp only [List.forall_mem_cons]
    exact ⟨hreads₁, hreads₂, List.forall_mem_nil _⟩
  obtain ⟨d, hreads, hfields⟩ :=
    exists_record gone hmembers (by decide : ["queue", "batching"].Nodup)
  have hsections : d.fields? ["queue", "batching"] =
      some [if gone ["queue"] then none else some queue,
        if gone ["batching"] then none else some batching] := hfields
  refine ⟨d, hreads, ?_⟩
  unfold ofDocument?
  rw [hsections]
  dsimp only
  rw [holds_ite h₁, holds_ite h₂]
  rfl

end Sections

end Courier
