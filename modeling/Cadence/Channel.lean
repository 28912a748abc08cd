import Cadence.Outcome

/-!
# Cadence.Channel — a bounded queue between two threads

A channel holds at most `capacity` items in the order they were sent.  A sender that may wait is
held up when the queue is full, and its item goes in when the receiver takes one out; a sender that
may not wait loses the item.  Without a receiver everything sent is discarded at once.
-/

namespace Cadence

/-- A channel of items of type `α`. -/
structure Channel (α : Type) where
  capacity : Nat
  queue : List α := []
  /-- Whether the receiver is still there. -/
  isOpen : Bool := true
  /-- The item of the sender that is held up. -/
  waiting : Option α := none
deriving DecidableEq, Repr

namespace Channel

variable {α : Type}

/-- The largest capacity there can be. -/
def maxCapacity : Nat := Nat.pow 2 61 - 1

/-- A channel for `capacity` items, or for one if that is zero; too large a capacity is a panic. -/
def create (capacity : Nat) : Except Payload (Channel α) :=
  if max capacity 1 ≤ maxCapacity then .ok { capacity := max capacity 1 }
  else .error (.text
    "a semaphore may not have more than MAX_PERMITS permits (2305843009213693951)")

/-- How a sending ended. -/
inductive Sent where
  /-- The sender is through. -/
  | through
  /-- The sender is held up. -/
  | heldUp
  /-- An earlier sender is held up, and this one did nothing. -/
  | busy
deriving DecidableEq, Repr

/-- Sends from a thread that may wait. -/
def send (ch : Channel α) (x : α) : Sent × Channel α :=
  if ch.waiting.isSome then (.busy, ch)
  else if !ch.isOpen then (.through, ch)
  else if ch.queue.length < ch.capacity then (.through, { ch with queue := ch.queue ++ [x] })
  else (.heldUp, { ch with waiting := some x })

/-- Sends from a thread that may not wait. -/
def trySend (ch : Channel α) (x : α) : Channel α :=
  if ch.isOpen && ch.queue.length < ch.capacity then { ch with queue := ch.queue ++ [x] } else ch

/-- Takes the oldest item out; the item of a sender that is held up goes in. -/
def receive (ch : Channel α) : Option α × Channel α :=
  match ch.queue with
  | [] => (none, ch)
  | x :: rest => (some x, { ch with queue := rest ++ ch.waiting.toList, waiting := none })

/-- The receiver goes away. -/
def close (ch : Channel α) : Channel α :=
  { ch with queue := [], isOpen := false, waiting := none }

/-- Whether a sender is held up. -/
def isHeldUp (ch : Channel α) : Bool := ch.waiting.isSome

end Channel

end Cadence
