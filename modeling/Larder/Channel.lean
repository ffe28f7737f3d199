/-!
# Channels

A channel carries what a resource publishes to any number of readers. It keeps the latest messages
up to its capacity; a reader is no more than the number of the message it wants next. A reader that
falls behind by more than the capacity is told how many messages it lost and goes on with the oldest
that is still there.
-/

namespace Larder

/-- The latest messages and how many were published in all. -/
structure Channel (α : Type) where
  /-- The number of messages published so far. -/
  published : Nat := 0
  /-- The latest messages, oldest first. -/
  recent : List α := []

namespace Channel

variable {α : Type}

/-- How many messages a channel keeps. -/
def capacity : Nat := 64

/-- What a reader gets. -/
inductive Reception (α : Type) where
  /-- Nothing that it has not seen. -/
  | empty
  /-- The next message. -/
  | message (a : α)
  /-- So many messages are lost. -/
  | lagged (lost : Nat)

/-- Publish a message; the oldest one goes when the channel is full. -/
def publish (c : Channel α) (a : α) : Channel α :=
  let all := c.recent ++ [a]
  ⟨c.published + 1, if all.length > capacity then all.drop 1 else all⟩

/-- Publish some messages in order. -/
def publishAll (c : Channel α) (as : List α) : Channel α := as.foldl publish c

/-- What the reader at `position` gets, and where it stands then. -/
def receive (c : Channel α) (position : Nat) : Reception α × Nat :=
  let oldest := c.published - c.recent.length
  if position < oldest then (.lagged (oldest - position), oldest)
  else
    match c.recent.drop (position - oldest) with
    | [] => (.empty, position)
    | a :: _ => (.message a, position + 1)

/-- Everything a reader at `position` has not seen: how many messages it lost, and the rest. -/
def drain (c : Channel α) (position : Nat) : Nat × List α :=
  let oldest := c.published - c.recent.length
  (oldest - position, c.recent.drop (position - oldest))

end Channel

end Larder
