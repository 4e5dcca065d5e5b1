import Provisioning.Event.Basic
import Provisioning.Text.Search

/-!
# The event bus

Publishing never waits.  Every subscription has a queue of its own; an event that finds it full is
dropped for that subscription and counted there and on the bus.  A subscription that is cancelled
gets no further events and keeps those in its queue.  One that no longer receives is removed when
the next event would reach it.
-/

namespace Provisioning

/-- One listener and its queue. -/
structure Subscription where
  /-- The beginning of the categories that are listened to. -/
  topic : String
  /-- How many events may wait. -/
  capacity : Nat
  /-- The events that wait, oldest first. -/
  queue : List Event := []
  /-- How many events were dropped. -/
  dropped : Nat := 0
  /-- Whether the bus delivers to it. -/
  registered : Bool := true
  /-- Whether anybody still receives. -/
  receiving : Bool := true

namespace Subscription

/-- Whether events of a category are listened to. -/
def matchesCategory (s : Subscription) (category : String) : Bool :=
  s.topic.toList.isPrefixOf category.toList

/-- What becomes of an event for one subscription. -/
inductive Delivery where
  /-- It is not for this subscription. -/
  | skipped
  /-- It is put into the queue. -/
  | queued
  /-- The queue is full. -/
  | dropped
  /-- Nobody receives any more. -/
  | gone
deriving DecidableEq

/-- What becomes of an event for a subscription. -/
def delivery (s : Subscription) (e : Event) : Delivery :=
  if !s.registered || !s.matchesCategory e.category then .skipped
  else if !s.receiving then .gone
  else if s.queue.length < max s.capacity 1 then .queued
  else .dropped

/-- The subscription after an event. -/
def offer (s : Subscription) (e : Event) : Subscription :=
  match s.delivery e with
  | .skipped => s
  | .queued => { s with queue := s.queue ++ [e] }
  | .dropped => { s with dropped := s.dropped + 1 }
  | .gone => { s with registered := false }

end Subscription

/-- The outcome of waiting for an event. -/
inductive Receipt where
  /-- The oldest event that waited. -/
  | event (e : Event)
  /-- None waits, but more may come. -/
  | empty
  /-- None waits, and none will come. -/
  | disconnected

/-- The bus with all subscriptions ever made, numbered from 0, and its counts. -/
structure Bus where
  /-- The subscriptions, in the order in which they were made. -/
  subscriptions : List Subscription := []
  /-- How many events were published. -/
  published : Nat := 0
  /-- How many events were put into queues. -/
  delivered : Nat := 0
  /-- How many events were dropped. -/
  dropped : Nat := 0
  /-- Whether the bus still exists. -/
  isOpen : Bool := true

namespace Bus

/-- A bus that nobody listens to. -/
def empty : Bus := {}

/-- A further subscription, and its number. -/
def subscribe (b : Bus) (topic : String) (capacity : Nat) : Bus × Nat :=
  ({ b with subscriptions := b.subscriptions ++ [{ topic, capacity }] }, b.subscriptions.length)

/-- How many subscriptions meet an event with a delivery. -/
def countDeliveries (b : Bus) (e : Event) (d : Subscription.Delivery) : Nat :=
  (b.subscriptions.filter (·.delivery e = d)).length

/-- The bus after an event. -/
def publish (b : Bus) (e : Event) : Bus :=
  { b with
    subscriptions := b.subscriptions.map (·.offer e)
    published := b.published + 1
    delivered := b.delivered + b.countDeliveries e .queued
    dropped := b.dropped + b.countDeliveries e .dropped }

/-- The number of subscriptions that the bus delivers to. -/
def subscriberCount (b : Bus) : Nat :=
  (b.subscriptions.filter (·.registered)).length

/-- The bus with one subscription changed. -/
def update (b : Bus) (i : Nat) (f : Subscription → Subscription) : Bus :=
  { b with subscriptions := b.subscriptions.modify i f }

/-- The bus delivers no further events to a subscription. -/
def cancel (b : Bus) (i : Nat) : Bus :=
  b.update i fun s => { s with registered := false }

/-- Nobody receives for a subscription any more, and what waits is lost. -/
def dropReceiver (b : Bus) (i : Nat) : Bus :=
  b.update i fun s => { s with receiving := false, queue := [] }

/-- All events that wait for a subscription, which wait no longer. -/
def drain (b : Bus) (i : Nat) : List Event × Bus :=
  match b.subscriptions[i]? with
  | none => ([], b)
  | some s => (s.queue, b.update i fun s => { s with queue := [] })

/-- The oldest event that waits for a subscription, which waits no longer. -/
def receive (b : Bus) (i : Nat) : Receipt × Bus :=
  match b.subscriptions[i]? with
  | none => (.disconnected, b)
  | some s =>
    match s.queue with
    | e :: rest => (.event e, b.update i fun s => { s with queue := rest })
    | [] => (if s.registered && b.isOpen then .empty else .disconnected, b)

/-- How many events were dropped for a subscription. -/
def droppedFor (b : Bus) (i : Nat) : Nat :=
  (b.subscriptions[i]?.map Subscription.dropped).getD 0

/-- The bus ends: nothing is delivered any more. -/
def close (b : Bus) : Bus := { b with isOpen := false }

end Bus

end Provisioning
