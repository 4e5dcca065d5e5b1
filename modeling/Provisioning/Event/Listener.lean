import Provisioning.Event.Bus

/-!
# Listeners

Whoever subscribes holds a receiver and a handle, first as one, later apart if wanted.  The
receiver gets the events; the handle counts those that were dropped and cancels the subscription.
Letting go of the handle cancels it too, and letting go of the receiver ends all receiving.
-/

namespace Provisioning

/-- What is still held of a subscription. -/
inductive Hold where
  /-- Receiver and handle as one. -/
  | whole
  /-- Each of the two, or not. -/
  | parts (receiver handle : Bool)
deriving DecidableEq

namespace Hold

/-- Whether the receiver is held. -/
def receiver : Hold → Bool
  | whole => true
  | parts r _ => r

/-- Whether the handle is held. -/
def handle : Hold → Bool
  | whole => true
  | parts _ h => h

end Hold

/-- A bus with what is held of each subscription. -/
structure Switchboard where
  /-- The bus. -/
  bus : Bus := {}
  /-- What is held, by the numbers of the subscriptions. -/
  holds : List Hold := []

namespace Switchboard

variable (s : Switchboard)

/-- What is held of a subscription. -/
def hold (i : Nat) : Hold := s.holds[i]?.getD (.parts false false)

/-- Holds something else of a subscription. -/
def hand (i : Nat) (h : Hold) (bus : Bus) : Switchboard := ⟨bus, s.holds.set i h⟩

/-- A further subscription, and its number; none if the bus has ended. -/
def subscribe (topic : String) (capacity : Nat) : Option Nat × Switchboard :=
  if !s.bus.isOpen then (none, s)
  else
    let (bus, i) := s.bus.subscribe topic capacity
    (some i, ⟨bus, s.holds ++ [.whole]⟩)

/-- Publishes an event, unless the bus has ended. -/
def publish (e : Event) : Switchboard :=
  if s.bus.isOpen then { s with bus := s.bus.publish e } else s

/-- All events that wait; none without the receiver. -/
def drain (i : Nat) : Option (List Event) × Switchboard :=
  if !(s.hold i).receiver then (none, s)
  else
    let (es, bus) := s.bus.drain i
    (some es, { s with bus })

/-- The oldest event that waits; none without the receiver. -/
def receive (i : Nat) : Option Receipt × Switchboard :=
  if !(s.hold i).receiver then (none, s)
  else
    let (r, bus) := s.bus.receive i
    (some r, { s with bus })

/-- How many events were dropped; none without the handle. -/
def dropped (i : Nat) : Option Nat :=
  if (s.hold i).handle then some (s.bus.droppedFor i) else none

/-- Cancels a subscription whose handle is held. -/
def cancel (i : Nat) : Switchboard :=
  if (s.hold i).handle then { s with bus := s.bus.cancel i } else s

/-- Lets go of all that is held. -/
def letGo (i : Nat) : Switchboard :=
  s.hand i (.parts false false) ((s.bus.cancel i).dropReceiver i)

/-- Takes receiver and handle apart; what is not one any more is let go of. -/
def split (i : Nat) : Switchboard :=
  match s.hold i with
  | .whole => s.hand i (.parts true true) s.bus
  | .parts .. => s.letGo i

/-- Lets go of a receiver that is held apart. -/
def letReceiverGo (i : Nat) : Switchboard :=
  match s.hold i with
  | .whole => s
  | .parts _ h => s.hand i (.parts false h) (s.bus.dropReceiver i)

/-- Lets go of a handle that is held apart. -/
def letHandleGo (i : Nat) : Switchboard :=
  match s.hold i with
  | .whole => s
  | .parts r h => s.hand i (.parts r false) (if h then s.bus.cancel i else s.bus)

end Switchboard

end Provisioning
