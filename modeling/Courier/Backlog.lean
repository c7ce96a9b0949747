import Courier.Failure

/-!
# Bounded backlogs

A `Backlog` holds items in the order in which they were taken on, and refuses items while it is
full. `Backlog.items` is its content, oldest first.
-/

namespace Courier

/-- Items in the order of their arrival, at most `limit` of them. -/
structure Backlog (α : Type) where
  items : List α := []
  limit : Option Nat := none
  /-- How many items have been refused. -/
  refused : Nat := 0
deriving DecidableEq

namespace Backlog

variable {α : Type}

/-- An empty backlog without a limit. -/
def unbounded : Backlog α := {}

/-- An empty backlog for at most `limit` items. -/
def withLimit (limit : Nat) : Except Failure (Backlog α) :=
  if limit = 0 then .error .zeroLimit else .ok { limit := some limit }

/-- An empty backlog, bounded if a limit is given. -/
def ofLimit? : Option Nat → Except Failure (Backlog α)
  | none => .ok unbounded
  | some limit => withLimit limit

/-- The number of items. -/
def size (b : Backlog α) : Nat := b.items.length

/-- Whether there are no items. -/
def isEmpty (b : Backlog α) : Bool := b.items.isEmpty

/-- Whether there is no room for another item. -/
def isFull (b : Backlog α) : Bool :=
  match b.limit with
  | none => false
  | some limit => limit ≤ b.size

/-- Takes an item on, or refuses it if the backlog is full. The answer says which. -/
def offer (b : Backlog α) (item : α) : Bool × Backlog α :=
  if b.isFull then (false, { b with refused := b.refused + 1 })
  else (true, { b with items := b.items ++ [item] })

/-- Takes the oldest item out. -/
def pop? (b : Backlog α) : Option (α × Backlog α) :=
  match b.items with
  | [] => none
  | item :: rest => some (item, { b with items := rest })

/-- Discards every item. The answer is their number. -/
def clear (b : Backlog α) : Nat × Backlog α := (b.size, { b with items := [] })

/-- Offering an item adds at most one. -/
theorem size_offer_le (b : Backlog α) (item : α) : (b.offer item).2.size ≤ b.size + 1 := by
  unfold offer
  split <;> simp [size]

/-- Taking the oldest item out leaves one item fewer. -/
theorem size_pop? {b rest : Backlog α} {item : α} (h : b.pop? = some (item, rest)) :
    b.size = rest.size + 1 := by
  unfold pop? at h
  split at h
  · cases h
  · next hitems => cases h; simp [size, hitems]

end Backlog
end Courier
