import Mathlib.Algebra.Order.Ring.Nat
import Mathlib.Data.List.Induction
import Mathlib.Logic.Function.Basic
import Provisioning.Event.Bus

/-!
# Traffic on the event bus

Many publish on a bus, subscribe, receive, cancel and go away, each when it likes.  Who publishes
holds the bus until all subscriptions have been offered the event; receivers do not care and go on
meanwhile.  Beside the bus a ledger is kept for each subscription, of what it was offered and what
became of that.  The ledgers are looked at by nobody at work.

* `Traffic.move` : the smallest things that can happen;
* `Seat` : how the books of one subscription agree with it, and its laws, one for each of them;
* `Traffic.Inv`, `Traffic.Inv.move` : how all books agree with the bus;
* `Traffic.bus_publish` : an event that nobody disturbs is published as `Bus.publish` does it;
* `Traffic.books_balance` : conservation, order and counts, whatever has happened.
-/

namespace Provisioning

/-! ### What becomes of an event -/

namespace Subscription

variable {s : Subscription} {e : Event}

/-- Where events are delivered, one that is listened to finds room or does not. -/
theorem delivery_of_open (h : s.registered = true ∧ s.receiving = true) : s.delivery e =
    if s.matchesCategory e.category then
      if s.queue.length < max s.capacity 1 then .queued else .dropped
    else .skipped := by
  cases hm : s.matchesCategory e.category <;> simp [delivery, h, hm]

/-- Where a subscription is cancelled or nobody receives, nothing is delivered. -/
theorem delivery_of_closed (h : ¬ (s.registered = true ∧ s.receiving = true)) :
    s.delivery e = .skipped ∨ s.delivery e = .gone ∧ s.receiving = false := by
  cases hr : s.registered with
  | false => simp [delivery, hr]
  | true =>
    have hv : s.receiving = false := by simpa [hr] using h
    cases hm : s.matchesCategory e.category <;> simp [delivery, hr, hm, hv]

end Subscription

/-! ### Books -/

/-- An event that was meant for a subscription. -/
structure Offer where
  /-- The number of the event; events are numbered from 0 in the order in which they are
  published. -/
  number : Nat
  /-- The event. -/
  event : Event
  /-- How many events waited then. -/
  waiting : Nat
  /-- Whether it was put into the queue. -/
  kept : Bool

/-- The books of a subscription. -/
structure Ledger where
  /-- How many events had been published when it was made. -/
  since : Nat := 0
  /-- How many events had come by when it was cancelled or its receiver went away, whichever came
  first. -/
  ended? : Option Nat := none
  /-- The events that were meant for it. -/
  offers : List Offer := []
  /-- The events that were received. -/
  received : List Event := []
  /-- The events that still waited when the receiver went away. -/
  lost : List Event := []

namespace Ledger

variable (l : Ledger)

/-- The events that were put into the queue. -/
def kept : List Offer := l.offers.filter (·.kept)

/-- The events that were dropped. -/
def missed : List Offer := l.offers.filter (!·.kept)

/-- The numbers of the events that were received. -/
def seen : List Nat := (l.kept.take l.received.length).map Offer.number

/-- What becomes of an event for a subscription is written down. -/
def enter (number : Nat) (e : Event) (s : Subscription) : Ledger :=
  match s.delivery e with
  | .queued => { l with offers := l.offers ++ [⟨number, e, s.queue.length, true⟩] }
  | .dropped => { l with offers := l.offers ++ [⟨number, e, s.queue.length, false⟩] }
  | .skipped | .gone => l

theorem kept_enter (number : Nat) (e : Event) (s : Subscription) :
    (l.enter number e s).kept.length =
      l.kept.length + if s.delivery e = .queued then 1 else 0 := by
  cases hd : s.delivery e <;> simp [enter, kept, hd]

theorem missed_enter (number : Nat) (e : Event) (s : Subscription) :
    (l.enter number e s).missed.length =
      l.missed.length + if s.delivery e = .dropped then 1 else 0 := by
  cases hd : s.delivery e <;> simp [enter, missed, hd]

/-- The subscription is cancelled, or its receiver goes away. -/
def close (passed : Nat) : Ledger :=
  { l with ended? := some (l.ended?.getD passed) }

end Ledger

/-- The numbers of the events that a subscription should hear of: those it listens to, from one
number up to another. -/
def due (aired : List Event) (s : Subscription) (since upto : Nat) : List Nat :=
  (List.range upto).filter fun n =>
    since ≤ n && aired[n]?.any fun e => s.matchesCategory e.category

section due

variable {aired : List Event} {s : Subscription} {since upto : Nat}

theorem due_append (more : List Event) (h : upto ≤ aired.length) :
    due (aired ++ more) s since upto = due aired s since upto := by
  refine List.filter_congr fun n hn => ?_
  rw [List.getElem?_append_left (by have := List.mem_range.1 hn; omega)]

theorem due_self : due aired s since since = [] := by
  refine List.filter_eq_nil_iff.2 fun n hn => ?_
  have := List.mem_range.1 hn
  simp
  omega

theorem due_succ {e : Event} (he : aired[upto]? = some e) (h : since ≤ upto) :
    due aired s since (upto + 1) =
      due aired s since upto ++ if s.matchesCategory e.category then [upto] else [] := by
  rw [due, List.range_succ, List.filter_append]
  congr 1
  by_cases hm : s.matchesCategory e.category <;> simp [he, h, hm]

end due

/-- How the books of a subscription agree with it, given the events that were published and how many
of them have come by. -/
structure Seat (aired : List Event) (passed : Nat) (s : Subscription) (l : Ledger) : Prop where
  /-- It was made before the events came by. -/
  since_le : l.since ≤ l.ended?.getD passed
  /-- It has heard of no event that was not published. -/
  passed_le : l.ended?.getD passed ≤ aired.length
  /-- It was offered all events that it listens to, those published while it was registered and
  received, and no others. -/
  numbers : l.offers.map Offer.number = due aired s l.since (l.ended?.getD passed)
  /-- Each was the event of its number. -/
  events : ∀ o ∈ l.offers, aired[o.number]? = some o.event
  /-- An event was dropped if and only if the queue was full then. -/
  full : ∀ o ∈ l.offers, o.waiting ≤ max s.capacity 1 ∧
    (o.kept = false ↔ o.waiting = max s.capacity 1)
  /-- The events that were dropped are counted. -/
  dropped : s.dropped = l.missed.length
  /-- The others were received, or they wait, unless the receiver went away meanwhile. -/
  queue : l.received ++ l.lost ++ s.queue = l.kept.map Offer.event
  /-- No more wait than may. -/
  bound : s.queue.length ≤ max s.capacity 1
  /-- Events are delivered until it is cancelled or the receiver goes away. -/
  registered : l.ended? = none ↔ s.registered = true ∧ s.receiving = true
  /-- Nothing waits where nobody receives. -/
  gone : s.receiving = false → s.queue = []
  /-- Nothing is lost where somebody receives. -/
  lost : s.receiving = true → l.lost = []

namespace Seat

variable {aired : List Event} {passed : Nat} {s : Subscription} {l : Ledger}

theorem fresh (aired : List Event) (topic : String) (capacity : Nat) :
    Seat aired aired.length { topic, capacity } { since := aired.length } where
  since_le := Nat.le_refl _
  passed_le := Nat.le_refl _
  numbers := due_self.symm
  events := by simp
  full := by simp
  dropped := rfl
  queue := rfl
  bound := Nat.zero_le _
  registered := by simp
  gone := by simp
  lost := fun _ => rfl

/-- A further event is published that has not come by yet. -/
theorem air (h : Seat aired passed s l) (e : Event) : Seat (aired ++ [e]) passed s l where
  __ := h
  passed_le := Nat.le_trans h.passed_le (by simp)
  numbers := by rw [due_append _ h.passed_le, h.numbers]
  events o ho := by
    have hev := h.events o ho
    rw [List.getElem?_append_left (List.getElem?_eq_some_iff.1 hev).1, hev]

theorem receive (h : Seat aired passed s l) {e : Event} {rest : List Event}
    (hq : s.queue = e :: rest) :
    Seat aired passed { s with queue := rest } { l with received := l.received ++ [e] } where
  __ := h
  queue := by
    -- where something waits somebody receives, so nothing is lost
    have hlost : l.lost = [] := h.lost <| by
      by_contra hr
      rw [h.gone (by simpa using hr)] at hq
      cases hq
    show l.received ++ [e] ++ l.lost ++ rest = l.kept.map Offer.event
    rw [← h.queue, hq, hlost]
    simp
  bound := by
    have := h.bound
    rw [hq, List.length_cons] at this
    exact Nat.le_of_succ_le this
  gone hr := by
    rw [h.gone hr] at hq
    cases hq

theorem cancel (h : Seat aired passed s l) :
    Seat aired passed { s with registered := false } (l.close passed) where
  __ := h
  registered := by simp [Ledger.close]

theorem leave (h : Seat aired passed s l) :
    Seat aired passed { s with receiving := false, queue := [] }
      { l.close passed with lost := l.lost ++ s.queue } where
  __ := h
  queue := by
    show l.received ++ (l.lost ++ s.queue) ++ [] = l.kept.map Offer.event
    rw [← h.queue, List.append_nil, List.append_assoc]
  bound := Nat.zero_le _
  registered := by simp [Ledger.close]
  gone _ := rfl
  lost hr := by cases hr

section offer

variable {before : List Event} {e : Event}

/-- An event comes by that is not listened to. -/
theorem skip (h : Seat (before ++ [e]) before.length s l)
    (hopen : s.registered = true ∧ s.receiving = true)
    (hm : s.matchesCategory e.category = false) :
    Seat (before ++ [e]) (before.length + 1) s l where
  __ := h
  since_le := by
    have := h.since_le
    rw [h.registered.2 hopen, Option.getD_none] at this ⊢
    exact Nat.le_succ_of_le this
  passed_le := by simp [h.registered.2 hopen]
  numbers := by
    have hsince := h.since_le
    have hnumbers := h.numbers
    rw [h.registered.2 hopen, Option.getD_none] at hsince hnumbers ⊢
    rw [hnumbers, due_succ List.getElem?_concat_length hsince, hm]
    simp

/-- An event comes by that is listened to: the books, apart from its being kept or not. -/
theorem numbers_concat (h : Seat (before ++ [e]) before.length s l)
    (hopen : s.registered = true ∧ s.receiving = true)
    (hm : s.matchesCategory e.category = true) {o : Offer} (ho : o.number = before.length) :
    (l.offers ++ [o]).map Offer.number =
      due (before ++ [e]) s l.since (l.ended?.getD (before.length + 1)) := by
  have hsince := h.since_le
  have hnumbers := h.numbers
  rw [h.registered.2 hopen, Option.getD_none] at hsince hnumbers ⊢
  rw [List.map_append, hnumbers, due_succ List.getElem?_concat_length hsince, hm]
  simp [ho]

/-- An event comes by that finds room. -/
theorem keep (h : Seat (before ++ [e]) before.length s l)
    (hopen : s.registered = true ∧ s.receiving = true)
    (hm : s.matchesCategory e.category = true) (hroom : s.queue.length < max s.capacity 1) :
    Seat (before ++ [e]) (before.length + 1) { s with queue := s.queue ++ [e] }
      { l with offers := l.offers ++ [⟨before.length, e, s.queue.length, true⟩] } where
  __ := h
  since_le := by
    have := h.since_le
    rw [h.registered.2 hopen, Option.getD_none] at this ⊢
    exact Nat.le_succ_of_le this
  passed_le := by simp [h.registered.2 hopen]
  numbers := h.numbers_concat hopen hm rfl
  events := by
    rw [List.forall_mem_append, List.forall_mem_singleton]
    exact ⟨h.events, List.getElem?_concat_length⟩
  full := by
    rw [List.forall_mem_append, List.forall_mem_singleton]
    exact ⟨h.full, Nat.le_of_lt hroom, by simp [Nat.ne_of_lt hroom]⟩
  dropped := by simpa [Ledger.missed] using h.dropped
  queue := by
    show l.received ++ l.lost ++ (s.queue ++ [e]) = _
    rw [← List.append_assoc, h.queue]
    simp [Ledger.kept]
  bound := by
    rw [List.length_append]
    exact hroom
  gone hr := by
    rw [hopen.2] at hr
    cases hr

/-- An event comes by that finds the queue full. -/
theorem drop (h : Seat (before ++ [e]) before.length s l)
    (hopen : s.registered = true ∧ s.receiving = true)
    (hm : s.matchesCategory e.category = true) (hroom : ¬ s.queue.length < max s.capacity 1) :
    Seat (before ++ [e]) (before.length + 1) { s with dropped := s.dropped + 1 }
      { l with offers := l.offers ++ [⟨before.length, e, s.queue.length, false⟩] } where
  __ := h
  since_le := by
    have := h.since_le
    rw [h.registered.2 hopen, Option.getD_none] at this ⊢
    exact Nat.le_succ_of_le this
  passed_le := by simp [h.registered.2 hopen]
  numbers := h.numbers_concat hopen hm rfl
  events := by
    rw [List.forall_mem_append, List.forall_mem_singleton]
    exact ⟨h.events, List.getElem?_concat_length⟩
  full := by
    rw [List.forall_mem_append, List.forall_mem_singleton]
    exact ⟨h.full, h.bound, by simpa using Nat.le_antisymm h.bound (Nat.le_of_not_lt hroom)⟩
  dropped := by simp [Ledger.missed, h.dropped]
  queue := by simpa [Ledger.kept] using h.queue

/-- An event comes by where nothing is delivered any more. -/
theorem pass (h : Seat (before ++ [e]) before.length s l)
    (hclosed : ¬ (s.registered = true ∧ s.receiving = true)) :
    Seat (before ++ [e]) (before.length + 1) s l := by
  obtain ⟨n, hn⟩ := Option.ne_none_iff_exists'.1 fun hnone => hclosed (h.registered.1 hnone)
  have hgetD : ∀ p, l.ended?.getD p = n := by simp [hn]
  exact
    { h with
      since_le := by simpa [hgetD] using h.since_le
      passed_le := by simpa [hgetD] using h.passed_le
      numbers := by simpa [hgetD] using h.numbers }

/-- An event comes by that has just been published. -/
theorem offer (h : Seat (before ++ [e]) before.length s l) :
    Seat (before ++ [e]) (before.length + 1) (s.offer e) (l.enter before.length e s) := by
  by_cases hopen : s.registered = true ∧ s.receiving = true
  · have hd := Subscription.delivery_of_open (e := e) hopen
    cases hm : s.matchesCategory e.category with
    | false =>
      simp only [hm] at hd
      simpa [Subscription.offer, Ledger.enter, hd] using h.skip hopen hm
    | true =>
      by_cases hroom : s.queue.length < max s.capacity 1
      · simp only [hm, hroom, if_true] at hd
        simpa [Subscription.offer, Ledger.enter, hd] using h.keep hopen hm hroom
      · simp only [hm, hroom, if_true, if_false] at hd
        simpa [Subscription.offer, Ledger.enter, hd] using h.drop hopen hm hroom
  · rcases Subscription.delivery_of_closed (e := e) hopen with hd | ⟨hd, hr⟩
    · simpa [Subscription.offer, Ledger.enter, hd] using h.pass hopen
    · -- the subscription is removed, which it would have been before if anybody had looked
      simp only [Subscription.offer, Ledger.enter, hd]
      exact { h.pass hopen with registered := by simpa [hr] using h.registered }

end offer

end Seat

/-! ### The bus at work -/

/-- A bus at work. -/
structure Traffic where
  /-- The bus. -/
  bus : Bus := .empty
  /-- The events for which publishing was called, and which wait for the bus. -/
  calling : List Event := []
  /-- The events that were published, in order. -/
  aired : List Event := []
  /-- The event that is being published, and how many subscriptions have been offered it. -/
  round? : Option (Event × Nat) := none
  /-- The books of each subscription. -/
  ledger : Nat → Ledger := fun _ => {}

/-- What can happen to a bus. -/
inductive Traffic.Move where
  /-- Publishing is called for. -/
  | call (e : Event)
  /-- Of those who wait for the bus one gets hold of it. -/
  | take (k : Nat)
  /-- The event that is being published is offered to the next subscription; after the last the bus
  is let go. -/
  | serve
  /-- A subscription is made. -/
  | subscribe (topic : String) (capacity : Nat)
  /-- A subscription is cancelled. -/
  | cancel (i : Nat)
  /-- What has waited longest for a subscription is received, if anything waits. -/
  | receive (i : Nat)
  /-- The receiver of a subscription goes away. -/
  | leave (i : Nat)

/-- A subscription is offered an event, and what becomes of that is counted. -/
def Bus.offerTo (b : Bus) (i : Nat) (e : Event) : Bus :=
  let delivered? := (b.subscriptions[i]?.map (·.delivery e))
  { b.update i (·.offer e) with
    delivered := b.delivered + if delivered? = some .queued then 1 else 0
    dropped := b.dropped + if delivered? = some .dropped then 1 else 0 }

namespace Traffic

/-- How many events have come by a subscription. -/
def passed (t : Traffic) (i : Nat) : Nat :=
  match t.round? with
  | none => t.aired.length
  | some (_, k) => if i < k then t.aired.length else t.aired.length - 1

theorem passed_of_none {t : Traffic} (h : t.round? = none) (i : Nat) :
    t.passed i = t.aired.length := by rw [passed, h]

theorem passed_of_some {t : Traffic} {e : Event} {k : Nat} (h : t.round? = some (e, k)) (i : Nat) :
    t.passed i = if i < k then t.aired.length else t.aired.length - 1 := by rw [passed, h]

/-- What becomes of the bus and its books by what happens.  Who needs the bus to himself waits while
an event is being published. -/
def move (t : Traffic) : Move → Traffic
  | .call e =>
    { t with
      bus := { t.bus with published := t.bus.published + 1 }
      calling := t.calling ++ [e] }
  | .take k =>
    match t.round?, t.calling[k]? with
    | none, some e =>
      { t with
        calling := t.calling.eraseIdx k
        aired := t.aired ++ [e]
        round? := some (e, 0) }
    | _, _ => t
  | .serve =>
    match t.round? with
    | none => t
    | some (e, i) =>
      match t.bus.subscriptions[i]? with
      | none => { t with round? := none }
      | some s =>
        { t with
          bus := t.bus.offerTo i e
          ledger := Function.update t.ledger i ((t.ledger i).enter (t.aired.length - 1) e s)
          round? := some (e, i + 1) }
  | .subscribe topic capacity =>
    if t.round?.isNone then
      { t with
        bus := (t.bus.subscribe topic capacity).1
        ledger := Function.update t.ledger t.bus.subscriptions.length { since := t.aired.length } }
    else t
  | .cancel i =>
    if t.round?.isNone then
      { t with
        bus := t.bus.cancel i
        ledger := Function.update t.ledger i ((t.ledger i).close (t.passed i)) }
    else t
  | .receive i =>
    match t.bus.receive i with
    | (.event e, bus) =>
      { t with
        bus
        ledger := Function.update t.ledger i
          { t.ledger i with received := (t.ledger i).received ++ [e] } }
    | (_, bus) => { t with bus }
  | .leave i =>
    let waiting := (t.bus.subscriptions[i]?.map Subscription.queue).getD []
    { t with
      bus := t.bus.dropReceiver i
      ledger := Function.update t.ledger i
        { (t.ledger i).close (t.passed i) with lost := (t.ledger i).lost ++ waiting } }

/-- Something is received where something waits, and nothing happens elsewhere. -/
theorem move_receive (t : Traffic) (i : Nat) : t.move (.receive i) = t ∨
    ∃ s e rest, t.bus.subscriptions[i]? = some s ∧ s.queue = e :: rest ∧
      t.move (.receive i) =
        { t with
          bus := t.bus.update i fun s => { s with queue := rest }
          ledger := Function.update t.ledger i
            { t.ledger i with received := (t.ledger i).received ++ [e] } } := by
  cases hs : t.bus.subscriptions[i]? with
  | none => exact .inl (by simp [move, Bus.receive, hs])
  | some s =>
    cases hq : s.queue with
    | nil => exact .inl (by by_cases h : s.registered && t.bus.isOpen <;>
        simp [move, Bus.receive, hs, hq, h])
    | cons e rest => exact .inr ⟨s, e, rest, rfl, hq, by simp [move, Bus.receive, hs, hq]⟩

/-- The bus after some moves. -/
def run (moves : List Move) (t : Traffic) : Traffic := moves.foldl move t

/-- A new bus after some moves. -/
def after (moves : List Move) : Traffic := run moves {}

@[simp] theorem run_nil (t : Traffic) : t.run [] = t := rfl

@[simp] theorem run_cons (t : Traffic) (m : Move) (moves : List Move) :
    t.run (m :: moves) = (t.move m).run moves := rfl

theorem run_append (t : Traffic) (ms ns : List Move) :
    t.run (ms ++ ns) = (t.run ms).run ns := List.foldl_append

/-! ### The books agree with the bus -/

/-- How many offers of a kind there were to the first `n` subscriptions. -/
def tally (ledger : Nat → Ledger) (kind : Ledger → List Offer) (n : Nat) : Nat :=
  ((List.range n).map fun i => (kind (ledger i)).length).sum

section tally

variable {ledger : Nat → Ledger} {kind : Ledger → List Offer} {n i : Nat} {l : Ledger}

theorem tally_succ :
    tally ledger kind (n + 1) = tally ledger kind n + (kind (ledger n)).length := by
  simp [tally, List.range_succ]

theorem tally_update_of_le (h : n ≤ i) :
    tally (Function.update ledger i l) kind n = tally ledger kind n := by
  refine congrArg List.sum (List.map_congr_left fun j hj => ?_)
  have := List.mem_range.1 hj
  rw [Function.update_of_ne (by omega)]

theorem tally_update (ledger : Nat → Ledger) (kind : Ledger → List Offer) (l : Ledger)
    (h : i < n) :
    tally (Function.update ledger i l) kind n + (kind (ledger i)).length =
      tally ledger kind n + (kind l).length := by
  induction n with
  | zero => omega
  | succ n ih =>
    rw [tally_succ, tally_succ]
    rcases Nat.lt_succ_iff_lt_or_eq.1 h with hlt | rfl
    · have := ih hlt
      rw [Function.update_of_ne (by omega)]
      omega
    · rw [tally_update_of_le (Nat.le_refl i), Function.update_self]
      omega

/-- What is written down of other things does not count. -/
theorem tally_update_same (h : kind l = kind (ledger i)) :
    tally (Function.update ledger i l) kind n = tally ledger kind n := by
  rcases Nat.lt_or_ge i n with hi | hi
  · have := tally_update ledger kind l hi
    rw [h] at this
    omega
  · exact tally_update_of_le hi

end tally

/-- How all books agree with the bus. -/
structure Inv (t : Traffic) : Prop where
  /-- The books of each subscription agree with it. -/
  seats : ∀ i s, t.bus.subscriptions[i]? = some s → Seat t.aired (t.passed i) s (t.ledger i)
  /-- The event that is being published is the last that was. -/
  round : ∀ e k, t.round? = some (e, k) →
    k ≤ t.bus.subscriptions.length ∧ ∃ before, t.aired = before ++ [e]
  /-- The events that were put into queues are counted. -/
  delivered : t.bus.delivered = tally t.ledger Ledger.kept t.bus.subscriptions.length
  /-- The events that were dropped are counted. -/
  dropped : t.bus.dropped = tally t.ledger Ledger.missed t.bus.subscriptions.length
  /-- The calls are counted. -/
  published : t.bus.published = t.aired.length + t.calling.length

theorem inv_start : Inv {} where
  seats i s hs := by simp [Bus.empty] at hs
  round e k hr := by cases hr
  delivered := rfl
  dropped := rfl
  published := rfl

namespace Inv

variable {t : Traffic}

theorem call (h : t.Inv) (e : Event) : (t.move (.call e)).Inv where
  seats := h.seats
  round := h.round
  delivered := h.delivered
  dropped := h.dropped
  published := by simp [move, h.published]; omega

theorem take (h : t.Inv) (k : Nat) : (t.move (.take k)).Inv := by
  cases hr : t.round? with
  | some r => simpa [move, hr] using h
  | none =>
    cases hc : t.calling[k]? with
    | none => simpa [move, hr, hc] using h
    | some e =>
      simp only [move, hr, hc]
      refine ⟨fun i s hs => ?_, ?_, h.delivered, h.dropped, ?_⟩
      · have := (h.seats i s hs).air e
        simpa [passed, hr] using this
      · rintro e' k' ⟨⟩
        exact ⟨Nat.zero_le _, _, rfl⟩
      · have hk := (List.getElem?_eq_some_iff.1 hc).1
        simp [h.published, List.length_eraseIdx, hk]
        omega

/-- Something becomes of one subscription and its books, but not of what it was offered. -/
theorem update (h : t.Inv) {i : Nat} {f : Subscription → Subscription} {l : Ledger}
    (hseat : ∀ s, t.bus.subscriptions[i]? = some s → Seat t.aired (t.passed i) (f s) l)
    (hoffers : l.offers = (t.ledger i).offers) :
    Inv { t with bus := t.bus.update i f, ledger := Function.update t.ledger i l } := by
  have hkept : l.kept = (t.ledger i).kept := by rw [Ledger.kept, Ledger.kept, hoffers]
  have hmissed : l.missed = (t.ledger i).missed := by rw [Ledger.missed, Ledger.missed, hoffers]
  refine ⟨fun j s hs => ?_, ?_, ?_, ?_, h.published⟩
  · rw [Bus.update, List.getElem?_modify] at hs
    obtain ⟨s₀, hs₀, rfl⟩ := Option.map_eq_some_iff.1 hs
    show Seat t.aired (t.passed j) _ (Function.update t.ledger i l j)
    by_cases hij : i = j
    · subst hij
      simpa using hseat s₀ hs₀
    · simpa [hij, Function.update_of_ne (Ne.symm hij)] using h.seats j s₀ hs₀
  · simpa [Bus.update] using h.round
  · simpa [Bus.update, tally_update_same hkept] using h.delivered
  · simpa [Bus.update, tally_update_same hmissed] using h.dropped

theorem cancel (h : t.Inv) (i : Nat) : (t.move (.cancel i)).Inv := by
  rw [move]
  split
  · exact h.update (fun s hs => (h.seats i s hs).cancel) rfl
  · exact h

theorem leave (h : t.Inv) (i : Nat) : (t.move (.leave i)).Inv := by
  refine h.update (fun s hs => ?_) rfl
  simpa [hs] using (h.seats i s hs).leave

theorem receive (h : t.Inv) (i : Nat) : (t.move (.receive i)).Inv := by
  rcases t.move_receive i with heq | ⟨s, e, rest, hs, hq, heq⟩
  · rwa [heq]
  · rw [heq]
    refine h.update (fun s' hs' => ?_) rfl
    obtain rfl := Option.some.inj (hs.symm.trans hs')
    exact (h.seats i s hs).receive hq

theorem subscribe (h : t.Inv) (topic : String) (capacity : Nat) :
    (t.move (.subscribe topic capacity)).Inv := by
  rw [move]
  split
  case isFalse => exact h
  case isTrue hr =>
    have hpassed := passed_of_none (Option.isNone_iff_eq_none.1 hr)
    refine ⟨fun i s hs => ?_, fun e k hround => ?_, ?_, ?_, h.published⟩
    · show Seat t.aired (t.passed i) s (Function.update t.ledger t.bus.subscriptions.length _ i)
      rcases Nat.lt_trichotomy i t.bus.subscriptions.length with hlt | rfl | hgt
      · rw [Function.update_of_ne (Nat.ne_of_lt hlt)]
        exact h.seats i s (by simpa [Bus.subscribe, List.getElem?_append_left hlt] using hs)
      · obtain rfl : _ = s := by simpa [Bus.subscribe] using hs
        rw [Function.update_self, hpassed]
        exact .fresh _ _ _
      · have := (List.getElem?_eq_some_iff.1 hs).1
        simp [Bus.subscribe] at this
        omega
    · rw [Option.isNone_iff_eq_none.1 hr] at hround
      cases hround
    · simp [Bus.subscribe, tally_succ, tally_update_of_le, h.delivered, Ledger.kept]
    · simp [Bus.subscribe, tally_succ, tally_update_of_le, h.dropped, Ledger.missed]

/-- The bus is let go when all subscriptions have been offered the event. -/
theorem release (h : t.Inv) {e : Event} (hr : t.round? = some (e, t.bus.subscriptions.length)) :
    Inv { t with round? := none } where
  seats i s hs := by
    have := h.seats i s hs
    rwa [passed_of_some hr, if_pos (List.getElem?_eq_some_iff.1 hs).1] at this
  round e k hround := by cases hround
  delivered := h.delivered
  dropped := h.dropped
  published := h.published

/-- The event that is being published is offered to the next subscription. -/
theorem offer (h : t.Inv) {e : Event} {i : Nat} {s : Subscription} (hr : t.round? = some (e, i))
    (hs : t.bus.subscriptions[i]? = some s) :
    Inv
      { t with
        bus := t.bus.offerTo i e
        ledger := Function.update t.ledger i ((t.ledger i).enter (t.aired.length - 1) e s)
        round? := some (e, i + 1) } := by
  obtain ⟨-, before, haired⟩ := h.round e i hr
  have hi := (List.getElem?_eq_some_iff.1 hs).1
  refine ⟨fun j s' hs' => ?_, ?_, ?_, ?_, h.published⟩
  · have hpassed := passed_of_some hr
    rw [Bus.offerTo, Bus.update, List.getElem?_modify] at hs'
    obtain ⟨s₀, hs₀, rfl⟩ := Option.map_eq_some_iff.1 hs'
    have hseat := h.seats j s₀ hs₀
    show Seat t.aired (if j < i + 1 then t.aired.length else t.aired.length - 1) _
      (Function.update t.ledger i _ j)
    rw [hpassed] at hseat
    by_cases hij : i = j
    · subst hij
      obtain rfl := Option.some.inj (hs.symm.trans hs₀)
      simp only [haired] at hseat ⊢
      simpa using Seat.offer (by simpa using hseat)
    · have hlt : j < i + 1 ↔ j < i := by omega
      simpa [hij, hlt, Function.update_of_ne (Ne.symm hij)] using hseat
  · rintro e' k' ⟨⟩
    exact ⟨by simp only [Bus.offerTo, Bus.update, List.length_modify]; omega, before, haired⟩
  · have := tally_update t.ledger Ledger.kept ((t.ledger i).enter (t.aired.length - 1) e s) hi
    rw [Ledger.kept_enter] at this
    have hd := h.delivered
    simp only [Bus.offerTo, Bus.update, List.length_modify, hs, Option.map_some, Option.some.injEq]
    omega
  · have := tally_update t.ledger Ledger.missed ((t.ledger i).enter (t.aired.length - 1) e s) hi
    rw [Ledger.missed_enter] at this
    have hd := h.dropped
    simp only [Bus.offerTo, Bus.update, List.length_modify, hs, Option.map_some, Option.some.injEq]
    omega

theorem serve (h : t.Inv) : (t.move .serve).Inv := by
  rw [move]
  cases hr : t.round? with
  | none => exact h
  | some r =>
    obtain ⟨e, i⟩ := r
    cases hs : t.bus.subscriptions[i]? with
    | some s => simpa [hs] using h.offer hr hs
    | none =>
      have hi : i = t.bus.subscriptions.length :=
        Nat.le_antisymm (h.round e i hr).1 (List.getElem?_eq_none_iff.1 hs)
      simpa [hs] using h.release (hi ▸ hr)

protected theorem move (h : t.Inv) (m : Move) : (t.move m).Inv := by
  cases m with
  | call e => exact h.call e
  | take k => exact h.take k
  | serve => exact h.serve
  | subscribe topic capacity => exact h.subscribe topic capacity
  | cancel i => exact h.cancel i
  | receive i => exact h.receive i
  | leave i => exact h.leave i

protected theorem run (h : t.Inv) (moves : List Move) : (t.run moves).Inv := by
  induction moves generalizing t with
  | nil => exact h
  | cons m moves ih => exact ih (h.move m)

end Inv

/-! ### From a beginning to an end -/

/-- Whether a move is one that ends a subscription. -/
def Ends (t : Traffic) (i : Nat) : Move → Prop
  | .leave j => j = i
  | .cancel j => j = i ∧ t.round? = none
  | _ => False

/-- What a move leaves of a subscription and its books: its topic and capacity and when it was made;
it ends by moves of its own only, and after its end it is offered nothing. -/
structure Continues (t : Traffic) (m : Move) (i : Nat) (s s' : Subscription) (l' : Ledger) :
    Prop where
  topic : s'.topic = s.topic
  capacity : s'.capacity = s.capacity
  since : l'.since = (t.ledger i).since
  ended : l'.ended? = (t.ledger i).ended? ∨
    (t.ledger i).ended? = none ∧ t.Ends i m ∧ l'.ended? = some (t.passed i)
  offers : (t.ledger i).ended? ≠ none → l'.offers = (t.ledger i).offers

variable {t : Traffic} {i : Nat} {s : Subscription}

theorem Continues.refl (m : Move) : Continues t m i s s (t.ledger i) :=
  ⟨rfl, rfl, rfl, .inl rfl, fun _ => rfl⟩

/-- A subscription is offered an event. -/
theorem Continues.offer (h : t.Inv) {e : Event} (hs : t.bus.subscriptions[i]? = some s)
    (n : Nat) : Continues t .serve i s (s.offer e) ((t.ledger i).enter n e s) := by
  have hseat := h.seats i s hs
  have hoffers : (t.ledger i).ended? ≠ none →
      ((t.ledger i).enter n e s).offers = (t.ledger i).offers := by
    intro hended
    rcases Subscription.delivery_of_closed (e := e) (mt hseat.registered.2 hended) with hd | ⟨hd, -⟩
    all_goals rw [Ledger.enter, hd]
  cases hd : s.delivery e <;>
    exact ⟨by simp [Subscription.offer, hd], by simp [Subscription.offer, hd],
      by simp [Ledger.enter, hd], .inl (by simp [Ledger.enter, hd]), hoffers⟩

/-- A subscription is cancelled, or its receiver goes away. -/
theorem Continues.close {m : Move} (hm : t.Ends i m) {s' : Subscription} {l' : Ledger}
    (htopic : s'.topic = s.topic) (hcapacity : s'.capacity = s.capacity)
    (hl : ∃ lost, l' = { (t.ledger i).close (t.passed i) with lost }) :
    Continues t m i s s' l' := by
  obtain ⟨lost, rfl⟩ := hl
  refine ⟨htopic, hcapacity, rfl, ?_, fun _ => rfl⟩
  cases he : (t.ledger i).ended? with
  | none => exact .inr ⟨rfl, hm, by simp [Ledger.close, he]⟩
  | some n => exact .inl (by simp [Ledger.close, he])

/-- Something becomes of one subscription. -/
theorem exists_update {m : Move} {j : Nat} {f : Subscription → Subscription} {l' : Ledger}
    (hs : t.bus.subscriptions[i]? = some s) (hf : j = i → Continues t m i s (f s) l') :
    ∃ s', (t.bus.update j f).subscriptions[i]? = some s' ∧
      Continues t m i s s' (Function.update t.ledger j l' i) := by
  by_cases hij : j = i
  · subst hij
    exact ⟨f s, by simp [Bus.update, hs], by simpa using hf rfl⟩
  · refine ⟨s, by simp [Bus.update, hij, hs], ?_⟩
    rw [Function.update_of_ne (Ne.symm hij)]
    exact .refl m

theorem Inv.exists_move (h : t.Inv) (m : Move) (hs : t.bus.subscriptions[i]? = some s) :
    ∃ s', (t.move m).bus.subscriptions[i]? = some s' ∧
      Continues t m i s s' ((t.move m).ledger i) := by
  cases m with
  | call e => exact ⟨s, hs, .refl _⟩
  | take k =>
    rw [move]
    split <;> exact ⟨s, hs, .refl _⟩
  | serve =>
    rw [move]
    split
    · exact ⟨s, hs, .refl _⟩
    case h_2 e j hr =>
      split
      · exact ⟨s, hs, .refl _⟩
      case h_2 s₀ hs₀ =>
        refine exists_update hs fun hij => ?_
        subst hij
        obtain rfl := Option.some.inj (hs.symm.trans hs₀)
        exact .offer h hs _
  | subscribe topic capacity =>
    rw [move]
    split
    · have hi := (List.getElem?_eq_some_iff.1 hs).1
      refine ⟨s, by simpa [Bus.subscribe, List.getElem?_append_left hi] using hs, ?_⟩
      show Continues t _ i s s (Function.update t.ledger t.bus.subscriptions.length _ i)
      rw [Function.update_of_ne (Nat.ne_of_lt hi)]
      exact .refl _
    · exact ⟨s, hs, .refl _⟩
  | cancel j =>
    rw [move]
    split
    case isTrue hr =>
      refine exists_update hs fun hij => ?_
      subst hij
      have hends : t.Ends j (.cancel j) := ⟨rfl, Option.isNone_iff_eq_none.1 hr⟩
      exact .close hends rfl rfl ⟨_, rfl⟩
    · exact ⟨s, hs, .refl _⟩
  | receive j =>
    rcases t.move_receive j with heq | ⟨s₀, e, rest, -, -, heq⟩
    · rw [heq]
      exact ⟨s, hs, .refl _⟩
    · rw [heq]
      refine exists_update hs fun hij => ?_
      subst hij
      exact ⟨rfl, rfl, rfl, .inl rfl, fun _ => rfl⟩
  | leave j =>
    refine exists_update hs fun hij => ?_
    subst hij
    have hends : t.Ends j (.leave j) := rfl
    exact .close hends rfl rfl ⟨_, rfl⟩

/-- What is over stays as it is. -/
theorem Inv.run_ended (h : t.Inv) (moves : List Move) (hs : t.bus.subscriptions[i]? = some s)
    {n : Nat} (hn : (t.ledger i).ended? = some n) :
    ((t.run moves).ledger i).ended? = some n ∧
      ((t.run moves).ledger i).offers = (t.ledger i).offers := by
  induction moves generalizing t s with
  | nil => exact ⟨hn, rfl⟩
  | cons m moves ih =>
    obtain ⟨s', hs', hm⟩ := h.exists_move m hs
    have hn' : ((t.move m).ledger i).ended? = some n := by
      rcases hm.ended with heq | ⟨hnone, -⟩
      · rw [heq, hn]
      · rw [hn] at hnone
        cases hnone
    obtain ⟨hended, hoffers⟩ := ih (h.move m) hs' hn'
    exact ⟨hended, hoffers.trans (hm.offers (by simp [hn]))⟩

/-- Subscriptions are made by nothing else. -/
theorem length_move (t : Traffic) {m : Move}
    (hm : ∀ topic capacity, m ≠ .subscribe topic capacity) :
    (t.move m).bus.subscriptions.length = t.bus.subscriptions.length := by
  cases m with
  | call e => rfl
  | take k => rw [move]; split <;> rfl
  | serve =>
    rw [move]
    split
    · rfl
    · split
      · rfl
      · simp [Bus.offerTo, Bus.update]
  | subscribe topic capacity => exact absurd rfl (hm _ _)
  | cancel i => rw [move]; split <;> simp [Bus.cancel, Bus.update]
  | receive i => rcases t.move_receive i with heq | ⟨_, _, _, -, -, heq⟩ <;> simp [heq, Bus.update]
  | leave i => simp [move, Bus.dropReceiver, Bus.update]

/-- A subscription that was not there before a move is made by it. -/
theorem exists_before {m : Move} {s' : Subscription}
    (hs' : (t.move m).bus.subscriptions[i]? = some s') (hs : t.bus.subscriptions[i]? = none) :
    ∃ topic capacity, m = .subscribe topic capacity ∧ t.round? = none ∧
      t.bus.subscriptions.length = i ∧ s' = { topic, capacity } ∧
      (t.move m).ledger i = { since := t.aired.length } := by
  have hi := List.getElem?_eq_none_iff.1 hs
  have hi' := (List.getElem?_eq_some_iff.1 hs').1
  by_cases hm : ∃ topic capacity, m = .subscribe topic capacity
  · obtain ⟨topic, capacity, rfl⟩ := hm
    cases hr : t.round? with
    | some r =>
      rw [move, hr] at hi'
      exact absurd hi' (by simpa using hi)
    | none =>
      simp only [move, hr, Option.isNone_none, if_true, Bus.subscribe] at hs' hi' ⊢
      obtain rfl : t.bus.subscriptions.length = i := by
        rw [List.length_append, List.length_singleton] at hi'
        omega
      exact ⟨topic, capacity, rfl, trivial, rfl, by simpa using hs'.symm, by simp⟩
  · rw [t.length_move fun topic capacity h => hm ⟨topic, capacity, h⟩] at hi'
    omega

theorem after_concat (moves : List Move) (m : Move) :
    after (moves ++ [m]) = (after moves).move m := run_append _ _ _

theorem inv_after (moves : List Move) : (after moves).Inv := inv_start.run moves

/-- Whether a subscription is one that was made in the course of some moves, when so many events had
been published. -/
def Made (moves : List Move) (i : Nat) (s : Subscription) (since : Nat) : Prop :=
  ∃ before rest, moves = before ++ .subscribe s.topic s.capacity :: rest ∧
    (after before).round? = none ∧ (after before).bus.subscriptions.length = i ∧
    (after before).aired.length = since

/-- Whether a subscription was there and not over, and was ended in the course of some moves, when
so many events had come by. -/
def Closed (moves : List Move) (i n : Nat) : Prop :=
  ∃ before m rest, moves = before ++ m :: rest ∧ (after before).Ends i m ∧
    i < (after before).bus.subscriptions.length ∧ ((after before).ledger i).ended? = none ∧
    (after before).passed i = n

theorem Made.concat {moves : List Move} {since : Nat} (h : Made moves i s since) (m : Move) :
    Made (moves ++ [m]) i s since := by
  obtain ⟨before, rest, rfl, hrest⟩ := h
  exact ⟨before, rest ++ [m], by simp, hrest⟩

theorem Closed.concat {moves : List Move} {n : Nat} (h : Closed moves i n) (m : Move) :
    Closed (moves ++ [m]) i n := by
  obtain ⟨before, m', rest, rfl, hrest⟩ := h
  exact ⟨before, m', rest ++ [m], by simp, hrest⟩

/-- Every subscription was made by a move, and if it is over it was ended by one. -/
theorem made_and_closed (moves : List Move) {s : Subscription}
    (hs : (after moves).bus.subscriptions[i]? = some s) :
    Made moves i s ((after moves).ledger i).since ∧
      ∀ n, ((after moves).ledger i).ended? = some n → Closed moves i n := by
  induction moves using List.reverseRecOn generalizing s with
  | nil => simp [after, Bus.empty] at hs
  | append_singleton moves m ih =>
    rw [after_concat] at hs ⊢
    cases hs₀ : (after moves).bus.subscriptions[i]? with
    | none =>
      obtain ⟨topic, capacity, rfl, hr, hi, rfl, hl⟩ := exists_before hs hs₀
      rw [hl]
      exact ⟨⟨moves, [], rfl, hr, hi, rfl⟩, fun n hn => by cases hn⟩
    | some s₀ =>
      obtain ⟨s', hs', hm⟩ := (inv_after moves).exists_move m hs₀
      obtain rfl := Option.some.inj (hs.symm.trans hs')
      obtain ⟨hmade, hclosed⟩ := ih hs₀
      rw [hm.since]
      refine ⟨?_, fun n hn => ?_⟩
      · have := hmade.concat m
        rwa [Made, ← hm.topic, ← hm.capacity] at this
      · rcases hm.ended with heq | ⟨hnone, hends, heq⟩
        · exact (hclosed n (heq ▸ hn)).concat m
        · refine ⟨moves, m, [], rfl, hends, (List.getElem?_eq_some_iff.1 hs₀).1, hnone, ?_⟩
          exact Option.some.inj (heq.symm.trans hn)

/-- A move that ends a subscription does so. -/
theorem ended_of_ends {m : Move} (h : t.Ends i m) (hn : (t.ledger i).ended? = none) :
    ((t.move m).ledger i).ended? = some (t.passed i) := by
  cases m with
  | leave j =>
    obtain rfl : j = i := h
    simp [move, Ledger.close, hn]
  | cancel j =>
    obtain ⟨rfl, hr⟩ : j = i ∧ t.round? = none := h
    simp [move, hr, Ledger.close, hn]
  | _ => exact h.elim

/-- The books of a subscription say when it ended. -/
theorem ended_iff (moves : List Move) {n : Nat}
    (hs : (after moves).bus.subscriptions[i]? = some s) :
    ((after moves).ledger i).ended? = some n ↔ Closed moves i n := by
  refine ⟨(made_and_closed moves hs).2 n, ?_⟩
  rintro ⟨before, m, rest, rfl, hends, hi, hnone, rfl⟩
  obtain ⟨s', hs', -⟩ := (inv_after before).exists_move m (List.getElem?_eq_getElem hi)
  rw [List.append_cons, after, run_append]
  rw [← after_concat] at hs'
  refine ((inv_after _).run_ended rest hs' ?_).1
  rw [after_concat]
  exact ended_of_ends hends hnone

end Traffic

/-! ### Order -/

namespace Seat

variable {aired : List Event} {passed : Nat} {s : Subscription} {l : Ledger}

/-- Events are put into the queue in the order in which they are published, each at most once. -/
theorem pairwise_kept (h : Seat aired passed s l) :
    (l.kept.map Offer.number).Pairwise (· < ·) := by
  have hall : (l.offers.map Offer.number).Pairwise (· < ·) := by
    rw [h.numbers]
    exact List.pairwise_lt_range.filter _
  exact hall.sublist (List.filter_sublist.map _)

/-- So they are received. -/
theorem pairwise_seen (h : Seat aired passed s l) : l.seen.Pairwise (· < ·) :=
  h.pairwise_kept.sublist ((List.take_sublist _ _).map _)

/-- What was received are the events with the numbers that were seen. -/
theorem received_eq (h : Seat aired passed s l) :
    l.received.map some = l.seen.map fun n => aired[n]? := by
  have htake : l.received = (l.kept.take l.received.length).map Offer.event := by
    rw [List.map_take, ← h.queue, List.append_assoc, List.take_left]
  rw [Ledger.seen, List.map_map]
  conv_lhs => rw [htake]
  rw [List.map_map]
  refine List.map_congr_left fun o ho => ?_
  exact (h.events o (List.mem_filter.1 (List.mem_of_mem_take ho)).1).symm

end Seat

/-- What two increasing lists have in common stands in the same order in both. -/
theorem filter_mem_comm {ms ns : List Nat} (hm : ms.Pairwise (· < ·)) (hn : ns.Pairwise (· < ·)) :
    ms.filter (· ∈ ns) = ns.filter (· ∈ ms) := by
  have hm' : (ms.filter (· ∈ ns)).Pairwise (· < ·) := hm.filter _
  have hn' : (ns.filter (· ∈ ms)).Pairwise (· < ·) := hn.filter _
  refine List.Perm.eq_of_pairwise (fun a b _ _ hab hba => absurd hab (Nat.lt_asymm hba)) hm' hn' ?_
  rw [List.perm_ext_iff_of_nodup (hm'.imp Nat.ne_of_lt) (hn'.imp Nat.ne_of_lt)]
  simp [and_comm]

namespace Traffic

variable {t : Traffic} {i : Nat} {s : Subscription}

/-! ### Receiving and publishing -/

/-- What becomes of a subscription in two steps. -/
theorem update_update (b : Bus) (i : Nat) (f g : Subscription → Subscription) :
    (b.update i f).update i g = b.update i (g ∘ f) := by
  simp [Bus.update, List.modify_modify_eq]

theorem update_eq_self {b : Bus} {f : Subscription → Subscription}
    (hs : b.subscriptions[i]? = some s) (hf : f s = s) : b.update i f = b := by
  have : b.subscriptions.modify i f = b.subscriptions := by
    refine List.ext_getElem? fun j => ?_
    rw [List.getElem?_modify]
    by_cases hij : i = j
    · subst hij
      simp [hs, hf]
    · simp [hij]
  rw [Bus.update, this]

/-- All that waits can be received, whether or not the subscription was cancelled. -/
theorem run_receive (hs : t.bus.subscriptions[i]? = some s) :
    (t.run (List.replicate s.queue.length (.receive i))).bus = (t.bus.drain i).2 ∧
      ((t.run (List.replicate s.queue.length (.receive i))).ledger i).received =
        (t.ledger i).received ++ s.queue := by
  have hdrain : (t.bus.drain i).2 = t.bus.update i fun s => { s with queue := [] } := by
    simp [Bus.drain, hs]
  rw [hdrain]
  induction hq : s.queue generalizing t s with
  | nil => exact ⟨(update_eq_self hs (by rw [← hq])).symm, by simp⟩
  | cons e rest ih =>
    have hmove : t.move (.receive i) = { t with
        bus := t.bus.update i fun s => { s with queue := rest }
        ledger := Function.update t.ledger i
          { t.ledger i with received := (t.ledger i).received ++ [e] } } := by
      simp [move, Bus.receive, hs, hq]
    have hs' : (t.move (.receive i)).bus.subscriptions[i]? = some { s with queue := rest } := by
      simp [hmove, Bus.update, hs]
    obtain ⟨hbus, hreceived⟩ := ih hs' (by simp [Bus.drain, hs']) rfl
    rw [List.length_cons, List.replicate_succ, run_cons]
    refine ⟨hbus.trans ?_, hreceived.trans ?_⟩
    · rw [hmove, update_update]
      rfl
    · simp [hmove]

/-- An event that nobody disturbs is offered to all subscriptions that are left. -/
theorem run_serve {e : Event} (done : List Subscription) {rest : List Subscription}
    (hr : t.round? = some (e, done.length)) (hs : t.bus.subscriptions = done ++ rest) :
    (t.run (List.replicate (rest.length + 1) .serve)).round? = none ∧
      (t.run (List.replicate (rest.length + 1) .serve)).bus =
        { t.bus with
          subscriptions := done ++ rest.map (·.offer e)
          delivered := t.bus.delivered + (rest.filter (·.delivery e = .queued)).length
          dropped := t.bus.dropped + (rest.filter (·.delivery e = .dropped)).length } := by
  induction rest generalizing t done with
  | nil =>
    have hmove : t.move .serve = { t with round? := none } := by simp [move, hr, hs]
    simp [hmove, ← hs]
  | cons s rest ih =>
    have hget : t.bus.subscriptions[done.length]? = some s := by simp [hs]
    have hoffer : (t.bus.offerTo done.length e).subscriptions =
        (done ++ [s.offer e]) ++ rest := by
      rw [Bus.offerTo, Bus.update, List.modify_eq_take_cons_drop (by simp [hs])]
      simp [hs]
    have hmove : t.move .serve = { t with
        bus := t.bus.offerTo done.length e
        ledger := Function.update t.ledger done.length
          ((t.ledger done.length).enter (t.aired.length - 1) e s)
        round? := some (e, done.length + 1) } := by
      simp [move, hr, hget]
    obtain ⟨hround, hbus⟩ := ih (done ++ [s.offer e]) (t := t.move .serve)
      (by simp [hmove]) (by rw [hmove]; exact hoffer)
    rw [List.length_cons, List.replicate_succ, run_cons]
    refine ⟨hround, hbus.trans ?_⟩
    cases hd : s.delivery e <;>
      simp [hmove, Bus.offerTo, Bus.update, hget, hd, Nat.add_assoc, Nat.add_comm 1]

/-- An event that nobody disturbs is published as `Bus.publish` does it. -/
theorem bus_publish (hr : t.round? = none) (e : Event) :
    ∃ moves, (t.run moves).bus = t.bus.publish e ∧ (t.run moves).round? = none := by
  refine ⟨.call e :: .take t.calling.length ::
    List.replicate (t.bus.subscriptions.length + 1) .serve, ?_⟩
  have htake : (t.move (.call e)).move (.take t.calling.length) =
      { t with
        bus := { t.bus with published := t.bus.published + 1 }
        aired := t.aired ++ [e]
        round? := some (e, 0) } := by
    simp [move, hr, List.eraseIdx_append_of_length_le]
  rw [run_cons, run_cons, htake]
  obtain ⟨hround, hbus⟩ := run_serve [] (t := { t with
    bus := { t.bus with published := t.bus.published + 1 }
    aired := t.aired ++ [e]
    round? := some (e, 0) }) rfl rfl
  exact ⟨hbus, hround⟩

/-! ### Counts -/

/-- Whether a move is a call to publish. -/
def isCall : Move → Bool
  | .call _ => true
  | _ => false

theorem published_move (t : Traffic) (m : Move) :
    (t.move m).bus.published = t.bus.published + if isCall m then 1 else 0 := by
  cases m with
  | call e => rfl
  | take k => rw [move]; split <;> rfl
  | serve =>
    rw [move]
    split
    · rfl
    · split <;> rfl
  | subscribe topic capacity => rw [move]; split <;> rfl
  | cancel i => rw [move]; split <;> rfl
  | receive i => rcases t.move_receive i with heq | ⟨_, _, _, -, -, heq⟩ <;> rw [heq] <;> rfl
  | leave i => rfl

theorem published_run (t : Traffic) (moves : List Move) :
    (t.run moves).bus.published = t.bus.published + moves.countP isCall := by
  induction moves generalizing t with
  | nil => rfl
  | cons m moves ih =>
    rw [run_cons, ih, published_move, List.countP_cons]
    omega

/-- The events that were dropped are counted twice, for all and for each subscription. -/
theorem Inv.dropped_eq (h : t.Inv) :
    t.bus.dropped = (t.bus.subscriptions.map Subscription.dropped).sum := by
  rw [h.dropped, tally]
  refine congrArg List.sum (List.ext_getElem (by simp) fun i h₁ h₂ => ?_)
  rw [List.getElem_map, List.getElem_map, List.getElem_range]
  exact (h.seats i _ (List.getElem?_eq_getElem (by simpa using h₂))).dropped.symm

/-! ### All books -/

/-- How things stand with a subscription after some moves. -/
structure Account (moves : List Move) (i : Nat) (s : Subscription) : Prop where
  /-- It was made by one of them. -/
  made : Made moves i s ((after moves).ledger i).since
  /-- It is over if and only if one of them ended it. -/
  ended : ∀ n, ((after moves).ledger i).ended? = some n ↔ Closed moves i n
  /-- The events that it should have heard of were received, wait, were dropped because the queue
  was full and are counted, or were lost when the receiver went away. -/
  seat : Seat (after moves).aired ((after moves).passed i) s ((after moves).ledger i)
  /-- Events were received in the order in which they were published, none of them twice. -/
  ordered : ((after moves).ledger i).seen.Pairwise (· < ·)
  /-- These are the events that were received. -/
  received : ((after moves).ledger i).received.map some =
    ((after moves).ledger i).seen.map fun n => (after moves).aired[n]?
  /-- After the end no event arrives that was published later. -/
  quiet : ∀ n, Closed moves i n → (∀ o ∈ ((after moves).ledger i).offers, o.number < n) ∧
    ∀ more, ((after (moves ++ more)).ledger i).offers = ((after moves).ledger i).offers
  /-- All that waits can be received. -/
  drains :
    (after (moves ++ List.replicate s.queue.length (.receive i))).bus =
        ((after moves).bus.drain i).2 ∧
      ((after (moves ++ List.replicate s.queue.length (.receive i))).ledger i).received =
        ((after moves).ledger i).received ++ s.queue

theorem account (moves : List Move) (hs : (after moves).bus.subscriptions[i]? = some s) :
    Account moves i s where
  made := (made_and_closed moves hs).1
  ended n := ended_iff moves hs
  seat := (inv_after moves).seats i s hs
  ordered := ((inv_after moves).seats i s hs).pairwise_seen
  received := ((inv_after moves).seats i s hs).received_eq
  quiet n hn := by
    have hended := (ended_iff moves hs).2 hn
    refine ⟨fun o ho => ?_, fun more => ?_⟩
    · have hnumbers := ((inv_after moves).seats i s hs).numbers
      rw [hended, Option.getD_some] at hnumbers
      have hmem := List.mem_map_of_mem (f := Offer.number) ho
      rw [hnumbers] at hmem
      exact List.mem_range.1 (List.mem_filter.1 hmem).1
    · rw [after, run_append]
      exact ((inv_after moves).run_ended more hs hended).2
  drains := by
    rw [after, run_append]
    exact run_receive hs

/-- Whatever has happened on a bus: calls to publish, drops and deliveries are counted, for all
subscriptions ever made; each subscription's account is in order; and any two that received the same
events received them in the same order.  A call that nobody disturbs is `Bus.publish`. -/
theorem books_balance (moves : List Move) :
    (after moves).bus.published = moves.countP isCall ∧
    (after moves).bus.dropped =
      ((after moves).bus.subscriptions.map Subscription.dropped).sum ∧
    (after moves).bus.delivered =
      tally (after moves).ledger Ledger.kept (after moves).bus.subscriptions.length ∧
    (∀ i s, (after moves).bus.subscriptions[i]? = some s → Account moves i s) ∧
    (∀ i j, i < (after moves).bus.subscriptions.length →
      j < (after moves).bus.subscriptions.length →
      ((after moves).ledger i).seen.filter (· ∈ ((after moves).ledger j).seen) =
        ((after moves).ledger j).seen.filter (· ∈ ((after moves).ledger i).seen)) ∧
    ((after moves).round? = none → ∀ e, ∃ more,
      (after (moves ++ more)).bus = (after moves).bus.publish e) := by
  have h := inv_after moves
  refine ⟨?_, h.dropped_eq, h.delivered, fun i s hs => account moves hs, fun i j hi hj => ?_,
    fun hr e => ?_⟩
  · rw [after, published_run]
    exact Nat.zero_add _
  · exact filter_mem_comm (h.seats i _ (List.getElem?_eq_getElem hi)).pairwise_seen
      (h.seats j _ (List.getElem?_eq_getElem hj)).pairwise_seen
  · obtain ⟨more, hbus, -⟩ := bus_publish hr e
    exact ⟨more, by rw [after, run_append]; exact hbus⟩

/-- Two are called to publish, and the second gets hold of the bus first.  The receiver of one
subscription goes away while the other event is being published; the other subscription has room for
one event and is cancelled. -/
def rush : List Move :=
  [.subscribe "" 0, .subscribe "task." 4, .call ⟨"1", none, .taskCompiled "a" 0⟩,
    .call ⟨"2", none, .taskCompiled "b" 0⟩, .take 1, .serve, .serve, .receive 1, .serve, .take 0,
    .serve, .leave 1, .serve, .serve, .cancel 0]

/-- What waited is received after the cancellation; what was dropped is counted. -/
theorem rush_balances : ∃ s,
    (after rush).bus.subscriptions[0]? = some s ∧ Account rush 0 s ∧ s.registered = false ∧
      s.dropped = 1 ∧ s.queue = [⟨"2", none, .taskCompiled "b" 0⟩] ∧
      (after rush).bus.dropped = 1 ∧ (after rush).bus.delivered = 2 ∧
      (after rush).bus.published = 2 ∧ ((after rush).ledger 1).seen = [0] :=
  ⟨_, rfl, (books_balance rush).2.2.2.1 0 _ rfl, by decide⟩

end Traffic

end Provisioning
