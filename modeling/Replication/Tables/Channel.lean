/-!
# Broadcast channels

A channel keeps everything that was ever sent. A reader has a place in it and gets the messages
in order; if it falls behind by more than the capacity, it is told how many messages it missed and
goes on with the oldest one that the channel still holds.
-/

namespace Replication

/-- Everything sent on a channel, oldest first. -/
structure Channel (α : Type) where
  sent : List α := []

namespace Channel

variable {α : Type}

/-- The messages that a channel holds for its readers. -/
def capacity : Nat := 256

/-- The channel with one more message. -/
def send (c : Channel α) (message : α) : Channel α := ⟨c.sent ++ [message]⟩

/-- The channel with more messages. -/
def sendAll (c : Channel α) (messages : List α) : Channel α := ⟨c.sent ++ messages⟩

/-- The place of a reader that has read everything. -/
def latest (c : Channel α) : Nat := c.sent.length

/-- What a reader gets. -/
inductive Received (α : Type) where
  | message (m : α)
  | lagged (missed : Nat)
  | nothing

/-- What a reader at a place gets, and its place afterwards. -/
def receive (c : Channel α) (place : Nat) : Received α × Nat :=
  let behind := c.sent.length - place
  if capacity < behind then (.lagged (behind - capacity), c.sent.length - capacity)
  else match c.sent[place]? with
    | some m => (.message m, place + 1)
    | none => (.nothing, place)

/-- How many messages a reader at a place missed, and those that it gets. -/
def drain (c : Channel α) (place : Nat) : Nat × List α :=
  let behind := c.sent.length - place
  (behind - capacity, c.sent.drop (place + (behind - capacity)))

end Channel

end Replication
