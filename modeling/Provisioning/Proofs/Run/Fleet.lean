import Mathlib.Algebra.Order.Ring.Nat
import Mathlib.Data.List.Basic
import Provisioning.Proofs.Run.Observation

/-!
# Many hosts, at the same time or one after another

The workers of a fleet have nothing in common but what they are told to do and the bus on which they
publish.  Here they get their turns in any order, one remote call or one event at a time, while
others subscribe and receive at the bus; each comes to what it would come to alone.  So it does where
hosts are provisioned one after another, up to a host of which whoever provisions them dies.

* `Hand.turn` : what a worker does in one turn, and `Hand.finish`, all that it would still do;
* `Hand.finish_turn` : a turn does not change what a worker comes to;
* `Fleet.told_run` : of all that is published each worker's part is what it has told;
* `Fleet.exists_over` : whatever turns there were, more turns bring all work to its end;
* `Worker.inTurn_of_dead` : what is left undone when a worker dies that is not one of several;
* `Fleet.as_alone` : fleets at work, `provisionFleet` and the result of all reports.
-/

namespace Provisioning

/-! ### What a host alone comes to -/

/-- What there is at a host, and all that a run has sent and told. -/
structure Record (σ : Type) where
  /-- What is there. -/
  place : σ
  /-- What was sent, in order, the writing of logs included. -/
  sent : List Request := []
  /-- What was told, in order. -/
  told : List Happening := []

variable {σ : Type}

/-- A host of which all is written down that is sent to it. -/
def Target.recorded (T : Target σ) : Target (Record σ) where
  ask call r :=
    let (reply?, place) := T.ask call r.place
    (reply?, { r with place, sent := r.sent ++ [.call call] })
  reset r :=
    let (result, place) := T.reset r.place
    (result, { r with place, sent := r.sent ++ [.reset] })
  files r := T.files r.place
  clock r := T.clock r.place

/-- A host as the place of a run of which all is written down. -/
def Target.recorder (T : Target σ) : PlaceHandler (Record σ) where
  toHost := T.recorded.host
  tell what := OptionT.mk fun r => (some (), { r with told := r.told ++ [what] })
  log job := OptionT.mk fun r =>
    let (result, r) := T.recorded.relay job r
    (some result, r)

/-- What a run comes to, unless its worker dies. -/
abbrev Outcome := Option (Except RunError Counts)

/-- Why a run failed, if it did. -/
def Outcome.failure? : Outcome → Option RunError
  | some (.ok _) => none
  | some (.error e) => some e
  | none => some HostReport.workerDied

/-- What is done. -/
def Outcome.counts : Outcome → Counts
  | some (.ok counts) => counts
  | _ => .zero

/-- A host of which nothing is written down yet. -/
def FleetHost.recorded (h : FleetHost σ) : FleetHost (Record σ) :=
  ⟨h.name, h.user, ⟨h.place, [], []⟩⟩

/-- What a host comes to if it is provisioned alone, and what is then written down. -/
def FleetHost.alone (T : Target σ) (settings : Settings) (tasks : List Task) (h : FleetHost σ) :
    Outcome × Record σ :=
  (((Runner.mk h.user settings).provision tasks).runWith T.recorder).run h.recorded.place

/-! ### Workers at work -/

/-- What a worker is at. -/
inductive Post where
  /-- The run. -/
  | run (s : Script (Except RunError Counts))
  /-- The writing of a log, for which the run waits. -/
  | log (t : Talk (Except LogError Unit))
    (next : Except LogError Unit → Script (Except RunError Counts))
  /-- Nothing any more: it died. -/
  | dead

/-- A worker, and what is written down of its host. -/
structure Hand (σ : Type) where
  /-- The name of the host. -/
  host : String
  /-- What it is at. -/
  post : Post
  /-- What is written down. -/
  record : Record σ

namespace Hand

/-- The worker of a host before its first turn. -/
def start (settings : Settings) (tasks : List Task) (h : FleetHost σ) : Hand σ :=
  ⟨h.name, .run ((Runner.mk h.user settings).provision tasks), h.recorded.place⟩

/-- The worker after one turn, and what it has told.  In one turn it sends one script to its host,
or has sessions closed, or tells one event; the scripts that write a log have turns of their own. -/
def turn (T : Target σ) (w : Hand σ) : Hand σ × Option Happening :=
  match w.post with
  | .dead | .run (.done _) => (w, none)
  | .run (.ask call next) =>
    match T.recorded.ask call w.record with
    | (some reply, record) => (⟨w.host, .run (next reply), record⟩, none)
    | (none, record) => (⟨w.host, .dead, record⟩, none)
  | .run (.reset next) =>
    let (result, record) := T.recorded.reset w.record
    (⟨w.host, .run (next result), record⟩, none)
  | .run (.tell what next) =>
    (⟨w.host, .run next, { w.record with told := w.record.told ++ [what] }⟩, some what)
  | .run (.log job next) =>
    let lines := job.lines.mapIdx fun i l => l.render (T.recorded.clock w.record i)
    (⟨w.host, .log (Log.write job.dir job.sum lines) next, w.record⟩, none)
  | .log (.done result) next => (⟨w.host, .run (next result), w.record⟩, none)
  | .log (.ask call talk) next =>
    match T.recorded.ask call w.record with
    | (some reply, record) => (⟨w.host, .log (talk reply) next, record⟩, none)
    | (none, record) => (⟨w.host, .run (next (.error .died)), record⟩, none)
  | .log (.reset talk) next =>
    let (result, record) := T.recorded.reset w.record
    (⟨w.host, .log (talk result) next, record⟩, none)

/-- What a worker comes to if it goes on alone, and what is then written down. -/
def finish (T : Target σ) (w : Hand σ) : Outcome × Record σ :=
  match w.post with
  | .dead => (none, w.record)
  | .run s => (s.runWith T.recorder).run w.record
  | .log t next =>
    match (t.runWith T.recorded.host).run w.record with
    | (some result, record) => ((next result).runWith T.recorder).run record
    | (none, record) => ((next (.error .died)).runWith T.recorder).run record

/-- What a worker has come to, if its work is over. -/
def outcome? (w : Hand σ) : Option Outcome :=
  match w.post with
  | .dead => some none
  | .run (.done result) => some (some result)
  | _ => none

/-- The worker after some turns of its own. -/
def turns (T : Target σ) : Nat → Hand σ → Hand σ
  | 0, w => w
  | n + 1, w => turns T n (w.turn T).1

variable (T : Target σ) (w : Hand σ)

theorem turn_ask (host : String) (call : Call)
    (next : Reply → Script (Except RunError Counts)) (record : Record σ) :
    turn T ⟨host, .run (.ask call next), record⟩ =
      match T.recorded.ask call record with
      | (some reply, record) => (⟨host, .run (next reply), record⟩, none)
      | (none, record) => (⟨host, .dead, record⟩, none) := rfl

theorem turn_log_ask (host : String) (call : Call) (talk : Reply → Talk (Except LogError Unit))
    (next : Except LogError Unit → Script (Except RunError Counts)) (record : Record σ) :
    turn T ⟨host, .log (.ask call talk) next, record⟩ =
      match T.recorded.ask call record with
      | (some reply, record) => (⟨host, .log (talk reply) next, record⟩, none)
      | (none, record) => (⟨host, .run (next (.error .died)), record⟩, none) := rfl

/-- In one turn a worker may tell one event, and that is written down. -/
theorem turn_told : (w.turn T).1.host = w.host ∧
    (w.turn T).1.record.told = w.record.told ++ (w.turn T).2.toList := by
  have hask (call : Call) (r : Record σ) : (T.recorded.ask call r).2.told = r.told := rfl
  obtain ⟨host, post, record⟩ := w
  cases post with
  | dead => exact ⟨rfl, (List.append_nil _).symm⟩
  | run s =>
    cases s with
    | done a | reset next | log job next => exact ⟨rfl, (List.append_nil _).symm⟩
    | tell what next => exact ⟨rfl, rfl⟩
    | ask call next =>
      rw [turn_ask, ← hask call record]
      rcases T.recorded.ask call record with ⟨_ | reply, record'⟩ <;>
        exact ⟨rfl, (List.append_nil _).symm⟩
  | log t next =>
    cases t with
    | done a | reset talk => exact ⟨rfl, (List.append_nil _).symm⟩
    | ask call talk =>
      rw [turn_log_ask, ← hask call record]
      rcases T.recorded.ask call record with ⟨_ | reply, record'⟩ <;>
        exact ⟨rfl, (List.append_nil _).symm⟩

/-- It makes no difference to what a worker comes to whether it has had one turn more. -/
theorem finish_turn : (w.turn T).1.finish T = w.finish T := by
  obtain ⟨host, post, record⟩ := w
  cases post with
  | dead => rfl
  | run s =>
    cases s with
    | done a | reset next | tell what next => rfl
    | ask call next =>
      have hask : (T.recorder.ask call).run record =
          ((T.recorded.ask call record).1, (T.recorded.ask call record).2) := rfl
      rw [turn_ask]
      simp only [finish, Script.runWith, OptionT.run_bind_apply, hask]
      rcases T.recorded.ask call record with ⟨_ | reply, record'⟩ <;> rfl
    | log job next =>
      have hlog : (T.recorder.log job).run record =
          (some (T.recorded.relay job record).1, (T.recorded.relay job record).2) := rfl
      simp only [turn, finish, Script.runWith, OptionT.run_bind_apply, hlog, Target.relay]
      split <;> rename_i heq <;> rw [heq]
  | log t next =>
    cases t with
    | done a | reset talk => rfl
    | ask call talk =>
      have hask : (T.recorded.host.ask call).run record =
          ((T.recorded.ask call record).1, (T.recorded.ask call record).2) := rfl
      rw [turn_log_ask]
      simp only [finish, Talk.runWith, OptionT.run_bind_apply, hask]
      rcases T.recorded.ask call record with ⟨_ | reply, record'⟩ <;> rfl

/-- A worker whose work is over has come to what it would still come to. -/
theorem finish_of_outcome {o : Outcome} (h : w.outcome? = some o) :
    w.finish T = (o, w.record) := by
  obtain ⟨host, post, record⟩ := w
  cases post with
  | dead =>
    cases h
    rfl
  | log t next => cases h
  | run s =>
    cases s with
    | done a =>
      cases h
      rfl
    | ask | reset | tell | log => cases h

/-! ### Every worker comes to an end -/

/-- Whether a worker comes to the end of its work if it gets enough turns. -/
def Ends (w : Hand σ) : Prop := ∃ n o, (w.turns T n).outcome? = some o

variable {T} {w}

theorem Ends.of_turn (h : (w.turn T).1.Ends T) : w.Ends T := by
  obtain ⟨n, o, ho⟩ := h
  exact ⟨n + 1, o, ho⟩

theorem Ends.dead (host : String) (record : Record σ) : Ends T ⟨host, .dead, record⟩ :=
  ⟨0, none, rfl⟩

/-- The writing of a log ends, by induction on what it still asks for. -/
theorem Ends.log {host : String} {next : Except LogError Unit → Script (Except RunError Counts)}
    (hnext : ∀ result record, Ends T ⟨host, .run (next result), record⟩)
    (t : Talk (Except LogError Unit)) (record : Record σ) : Ends T ⟨host, .log t next, record⟩ := by
  induction t generalizing record with
  | done result => exact .of_turn (hnext result record)
  | reset talk ih => exact .of_turn (ih _ _)
  | ask call talk ih =>
    refine .of_turn ?_
    rw [turn_log_ask]
    rcases T.recorded.ask call record with ⟨_ | reply, record'⟩
    · exact hnext _ _
    · exact ih reply record'

/-- A run ends, by induction on what it still asks for and tells. -/
theorem Ends.run {host : String} (s : Script (Except RunError Counts)) (record : Record σ) :
    Ends T ⟨host, .run s, record⟩ := by
  induction s generalizing record with
  | done a => exact ⟨0, some a, rfl⟩
  | reset next ih => exact .of_turn (ih _ _)
  | tell what next ih => exact .of_turn (ih _)
  | log job next ih => exact .of_turn (.log (fun result record => ih result record) _ _)
  | ask call next ih =>
    refine .of_turn ?_
    rw [turn_ask]
    rcases T.recorded.ask call record with ⟨_ | reply, record'⟩
    · exact .dead _ _
    · exact ih reply record'

/-- Every worker comes to the end of its work. -/
theorem ends (w : Hand σ) : w.Ends T := by
  obtain ⟨host, post, record⟩ := w
  cases post with
  | dead => exact .dead _ _
  | run s => exact .run _ _
  | log t next => exact .log (fun _ _ => .run _ _) _ _

end Hand

/-! ### Fleets at work -/

/-- What is not changed in an item is not changed in the list either. -/
theorem map_modify_of_comp_eq {α β : Type} {f : α → β} {g : α → α} (h : ∀ a, f (g a) = f a)
    (i : Nat) (l : List α) : (l.modify i g).map f = l.map f := by
  refine List.ext_getElem? fun j => ?_
  rw [List.getElem?_map, List.getElem?_map, List.getElem?_modify]
  cases l[j]? with
  | none => rfl
  | some a => by_cases hij : i = j <;> simp [hij, h]

/-- The workers of a fleet, and the bus on which all of them publish, if there is one. -/
structure Fleet (σ : Type) where
  /-- The workers, in the order of their hosts. -/
  hands : List (Hand σ)
  /-- The bus. -/
  bus? : Option Bus
  /-- What was published, and by which worker, in order. -/
  aired : List (Nat × Event) := []

namespace Fleet

/-- What happens next among workers at the same time. -/
inductive Turn where
  /-- One of the workers has a turn, at some time. -/
  | worker (i : Nat) (time : String)
  /-- Something is done at the bus by others: one subscribes, receives or cancels. -/
  | others (act : Bus → Bus)

/-- A fleet before any turn. -/
def start (settings : Settings) (tasks : List Task) (bus? : Option Bus)
    (hosts : List (FleetHost σ)) : Fleet σ :=
  { hands := hosts.map (Hand.start settings tasks), bus? }

/-- A worker publishes an event, if there is a bus. -/
def air (f : Fleet σ) (i : Nat) (e : Event) : Fleet σ :=
  match f.bus? with
  | none => f
  | some bus => { f with bus? := some (bus.publish e), aired := f.aired ++ [(i, e)] }

/-- What a worker would tell in its next turn. -/
def telling? (T : Target σ) (f : Fleet σ) (i : Nat) (time : String) : Option Event := do
  let w ← f.hands[i]?
  let what ← (w.turn T).2
  return ⟨time, some w.host, what⟩

/-- A fleet after a turn. -/
def take (T : Target σ) (f : Fleet σ) : Turn → Fleet σ
  | .others act => { f with bus? := f.bus?.map act }
  | .worker i time =>
    let after := { f with hands := f.hands.modify i fun w => (w.turn T).1 }
    match f.telling? T i time with
    | none => after
    | some e => after.air i e

/-- A fleet after some turns. -/
def run (T : Target σ) (f : Fleet σ) (ts : List Turn) : Fleet σ := ts.foldl (take T) f

/-- The reports of all hosts; none as long as there is something to be done. -/
def reports? (f : Fleet σ) : Option FleetReport :=
  if f.hands.all (·.outcome?.isSome) then
    some (f.hands.map fun w => .ofOutcome w.host (w.outcome?.getD none))
  else none

/-- What one of the workers has published: for which host, and what. -/
def own (f : Fleet σ) (i : Nat) : List (Option String × Happening) :=
  (f.aired.filter (·.1 = i)).map fun a => (a.2.host?, a.2.what)

variable {T : Target σ} {f : Fleet σ}

@[simp] theorem hands_air (i : Nat) (e : Event) : (f.air i e).hands = f.hands := by
  unfold air
  split <;> rfl

theorem hands_take_worker (i : Nat) (time : String) :
    (f.take T (.worker i time)).hands = f.hands.modify i fun w => (w.turn T).1 := by
  rw [take]
  cases f.telling? T i time with
  | none => rfl
  | some e => exact hands_air i e

/-- Whatever turns there are, what each worker comes to is the same. -/
theorem finish_run (ts : List Turn) : (f.run T ts).hands.map (fun w => (w.host, w.finish T)) =
    f.hands.map fun w => (w.host, w.finish T) := by
  induction ts generalizing f with
  | nil => rfl
  | cons t ts ih =>
    refine ih.trans ?_
    cases t with
    | others act => rfl
    | worker i time =>
      rw [hands_take_worker]
      exact map_modify_of_comp_eq (fun w => by rw [(w.turn_told T).1, w.finish_turn T]) i _

/-- Of all that was published, each worker's part is what is written down that it has told. -/
def Tells (f : Fleet σ) : Prop :=
  ∀ i w, f.hands[i]? = some w → f.own i = w.record.told.map fun what => (some w.host, what)

theorem Tells.take_worker (hf : f.Tells) (hbus : f.bus?.isSome) (i : Nat) (time : String) :
    (f.take T (.worker i time)).Tells := by
  obtain ⟨bus, hbus⟩ := Option.isSome_iff_exists.1 hbus
  intro j w hw
  rw [hands_take_worker, List.getElem?_modify] at hw
  obtain ⟨v, hv, rfl⟩ := Option.map_eq_some_iff.1 hw
  obtain ⟨hhost, htold⟩ := v.turn_told T
  by_cases hij : i = j
  · -- the worker whose turn it is: what it tells is published at once
    subst hij
    have htelling : f.telling? T i time =
        (v.turn T).2.map fun what => ⟨time, some v.host, what⟩ := by
      simp only [telling?, hv, Option.bind_eq_bind, Option.bind_some]
      cases (v.turn T).2 <;> rfl
    rw [if_pos rfl, hhost, htold, List.map_append, ← hf i v hv, take, htelling]
    cases (v.turn T).2 with
    | none => exact (List.append_nil _).symm
    | some what => simp [own, air, hbus, List.filter_append]
  · have hown : (f.take T (.worker i time)).own j = f.own j := by
      rw [take]
      cases f.telling? T i time with
      | none => rfl
      | some e => simp [own, air, hbus, List.filter_append, hij]
    rw [if_neg hij, hown]
    exact hf j v hv

theorem isSome_air (i : Nat) (e : Event) : (f.air i e).bus?.isSome = f.bus?.isSome := by
  unfold air
  cases h : f.bus? <;> simp [h]

@[simp] theorem isSome_take (t : Turn) : (f.take T t).bus?.isSome = f.bus?.isSome := by
  cases t with
  | others act => exact Option.isSome_map
  | worker i time =>
    rw [take]
    cases f.telling? T i time with
    | none => rfl
    | some e => exact isSome_air i e

/-- Whatever turns there are, each worker's part of all that is published is what it tells. -/
theorem told_run (hf : f.Tells) (hbus : f.bus?.isSome) (ts : List Turn) : (f.run T ts).Tells := by
  induction ts generalizing f with
  | nil => exact hf
  | cons t ts ih =>
    refine ih ?_ (by rwa [isSome_take])
    cases t with
    | others act => exact hf
    | worker i time => exact hf.take_worker hbus i time

/-! ### All work comes to an end -/

/-- Some turns of one worker. -/
theorem hands_run_replicate (i n : Nat) (time : String) :
    (f.run T (List.replicate n (.worker i time))).hands = f.hands.modify i (Hand.turns T n) := by
  induction n generalizing f with
  | zero => exact (List.modify_id i f.hands).symm
  | succ n ih =>
    refine ih.trans ?_
    rw [hands_take_worker, List.modify_modify_eq]
    rfl

theorem run_append (ts ts' : List Turn) : f.run T (ts ++ ts') = (f.run T ts).run T ts' :=
  List.foldl_append

/-- Whatever turns there were, more turns bring all work to its end. -/
theorem exists_over (f : Fleet σ) (T : Target σ) :
    ∃ ts, ∀ w ∈ (f.run T ts).hands, w.outcome?.isSome := by
  -- the workers are brought to their ends one after another
  have hfirst (n : Nat) : ∃ ts, ∀ i < n, ∀ w, (f.run T ts).hands[i]? = some w →
      w.outcome?.isSome := by
    induction n with
    | zero => exact ⟨[], by simp⟩
    | succ n ih =>
      obtain ⟨ts, hts⟩ := ih
      cases hn : (f.run T ts).hands[n]? with
      | none =>
        refine ⟨ts, fun i hi w hw => ?_⟩
        rcases Nat.lt_succ_iff_lt_or_eq.1 hi with hlt | rfl
        · exact hts i hlt w hw
        · exact absurd (hn.symm.trans hw) (by simp)
      | some v =>
        obtain ⟨k, o, ho⟩ := v.ends (T := T)
        refine ⟨ts ++ .replicate k (.worker n ""), fun i hi w hw => ?_⟩
        rw [run_append, hands_run_replicate, List.getElem?_modify] at hw
        rcases Nat.lt_succ_iff_lt_or_eq.1 hi with hlt | rfl
        · exact hts i hlt w (by simpa [hlt.ne'] using hw)
        · obtain rfl : v.turns T k = w := by simpa [hn] using hw
          exact Option.isSome_iff_exists.2 ⟨o, ho⟩
  obtain ⟨ts, hts⟩ := hfirst f.hands.length
  have hlength : (f.run T ts).hands.length = f.hands.length := by
    simpa using congrArg List.length (finish_run (T := T) (f := f) ts)
  refine ⟨ts, fun w hw => ?_⟩
  obtain ⟨i, hi, rfl⟩ := List.getElem_of_mem hw
  exact hts i (hlength ▸ hi) _ (List.getElem?_eq_getElem hi)

end Fleet

/-! ### At the same time, or one host after another -/

namespace Worker

variable (handler : PlaceHandler σ)

/-- It makes no difference to what a worker comes to whether it has had one turn more. -/
theorem finish_turn (w : Worker σ) : (w.turn handler).finish handler = w.finish handler := by
  obtain ⟨host, script?, place⟩ := w
  cases script? with
  | none => rfl
  | some s =>
    simp only [turn, finish, ← s.runWith_step handler, OptionT.run_bind_apply]
    rcases (s.step handler).run place with ⟨_ | s', place'⟩ <;> rfl

theorem host_turn (w : Worker σ) : (w.turn handler).host = w.host := by
  obtain ⟨host, script?, place⟩ := w
  cases script? <;> rfl

theorem report_turn (w : Worker σ) : (w.turn handler).report handler = w.report handler := by
  rw [report, finish_turn, host_turn, report]

/-- Whatever turns the workers get, each host is reported on as if its worker were the only one. -/
theorem atOnce_eq (turns : List Nat) (ws : List (Worker σ)) : atOnce handler turns ws =
    ⟨some (ws.map fun w => (w.report handler).1), ws.map fun w => (w.report handler).2⟩ := by
  have hturns : (turns.foldl (fun ws i => ws.modify i (turn handler)) ws).map (report handler) =
      ws.map (report handler) := by
    induction turns generalizing ws with
    | nil => rfl
    | cons i turns ih =>
      exact (ih _).trans (map_modify_of_comp_eq (report_turn handler) i ws)
  rw [atOnce, hturns, List.map_map, List.map_map]
  rfl

/-- Where the first workers do not die the others come next. -/
theorem inTurn_append {before : List (Worker σ)} (ws : List (Worker σ))
    (h : ∀ w ∈ before, (w.finish handler).1.isSome) : inTurn handler (before ++ ws) =
      ⟨(inTurn handler ws).report?.map (before.map (fun w => (w.report handler).1) ++ ·),
        before.map (fun w => (w.report handler).2) ++ (inTurn handler ws).places⟩ := by
  induction before with
  | nil => simp
  | cons w before ih =>
    obtain ⟨hw, hbefore⟩ := List.forall_mem_cons.1 h
    obtain ⟨outcome, houtcome⟩ := Option.isSome_iff_exists.1 hw
    rcases hfinish : w.finish handler with ⟨outcome?, place⟩
    obtain rfl : outcome? = some outcome := by simpa [hfinish] using houtcome
    simp [inTurn, report, hfinish, ih hbefore, Function.comp_def]

/-- If no worker dies that is no different from all being at work at the same time. -/
theorem inTurn_of_isSome {ws : List (Worker σ)} (h : ∀ w ∈ ws, (w.finish handler).1.isSome) :
    inTurn handler ws =
      ⟨some (ws.map fun w => (w.report handler).1), ws.map fun w => (w.report handler).2⟩ := by
  simpa [inTurn] using inTurn_append handler [] h

/-- When a worker dies there are no reports, and nothing happens at the hosts that are left. -/
theorem inTurn_of_dead {before after : List (Worker σ)} {w : Worker σ}
    (h : ∀ w ∈ before, (w.finish handler).1.isSome) (hw : (w.finish handler).1 = none) :
    inTurn handler (before ++ w :: after) = ⟨none, before.map (fun w => (w.finish handler).2) ++
      (w.finish handler).2 :: after.map place⟩ := by
  rcases hfinish : w.finish handler with ⟨outcome?, place⟩
  obtain rfl : outcome? = none := by simpa [hfinish] using hw
  rw [inTurn_append handler _ h]
  simp [inTurn, report, hfinish]

end Worker

namespace FleetHost

variable (T : Target σ) (settings : Settings) (tasks : List Task)

/-- The work on a host is what is done with it alone. -/
theorem finish_start (h : FleetHost σ) :
    (Worker.start settings tasks h.recorded).finish T.recorder = h.alone T settings tasks := rfl

theorem report_start (h : FleetHost σ) :
    (Worker.start settings tasks h.recorded).report T.recorder =
      (.ofOutcome h.name (h.alone T settings tasks).1, (h.alone T settings tasks).2) := rfl

theorem place_start (h : FleetHost σ) :
    (Worker.start settings tasks h.recorded).place = h.recorded.place := rfl

variable (hosts : List (FleetHost σ)) (order : List Nat)

/-- Each host of a fleet is reported on as if it were alone, whatever turns the workers get, if
there is a worker for each or none dies. -/
theorem provision_eq (h : settings.atOnce hosts ∨
      ∀ h ∈ hosts, (h.alone T settings tasks).1.isSome) :
    provisionFleet T.recorder settings tasks order (hosts.map recorded) =
      ⟨some (hosts.map fun h => .ofOutcome h.name (h.alone T settings tasks).1),
        hosts.map fun h => (h.alone T settings tasks).2⟩ := by
  have honce : settings.atOnce (hosts.map recorded) = settings.atOnce hosts := by
    rw [Settings.atOnce, List.length_map, Settings.atOnce]
  rw [provisionFleet, honce]
  split
  · rw [Worker.atOnce_eq]
    simp [Function.comp_def, report_start]
  · next hnot =>
    rw [Worker.inTurn_of_isSome]
    · simp [Function.comp_def, report_start]
    · simpa [finish_start] using h.resolve_left hnot

variable {hosts}

/-- One after another there is no report if a worker dies, and the hosts after it are not
reached. -/
theorem provision_of_dead {before after : List (FleetHost σ)} {h : FleetHost σ}
    (honce : settings.atOnce (before ++ h :: after) = false)
    (hbefore : ∀ h ∈ before, (h.alone T settings tasks).1.isSome)
    (hdead : (h.alone T settings tasks).1 = none) :
    provisionFleet T.recorder settings tasks order ((before ++ h :: after).map recorded) =
      ⟨none, before.map (fun h => (h.alone T settings tasks).2) ++
        (h.alone T settings tasks).2 :: after.map fun h => h.recorded.place⟩ := by
  have honce : settings.atOnce ((before ++ h :: after).map recorded) = false := by
    rwa [Settings.atOnce, List.length_map, ← Settings.atOnce]
  rw [provisionFleet, honce, if_neg Bool.false_ne_true, List.map_append, List.map_cons,
    List.map_append, List.map_cons, Worker.inTurn_of_dead]
  · simp [Function.comp_def, finish_start, place_start]
  · simpa [finish_start] using hbefore
  · exact hdead

end FleetHost

/-! ### What all reports come to -/

namespace Counts

theorem sum_eq (cs : List Counts) :
    sum cs = ⟨(cs.map executed).sum, (cs.map cached).sum, (cs.map invalidated).sum⟩ := by
  have hfold : ∀ (cs : List Counts) (c : Counts), cs.foldl (· + ·) c =
      c + ⟨(cs.map executed).sum, (cs.map cached).sum, (cs.map invalidated).sum⟩ := by
    intro cs
    induction cs with
    | nil => exact fun c => rfl
    | cons d ds ih =>
      intro c
      rw [List.foldl_cons, ih]
      simp [add_def, Nat.add_assoc]
  rw [sum, hfold, zero_add]

end Counts

namespace FleetReport

variable {r : FleetReport}

theorem failures_eq_nil_iff : r.failures = [] ↔ ∀ h ∈ r, h.error? = none := by
  simp [failures]

/-- All that was done is given if no host failed. -/
theorem result_eq_ok_iff {total : Counts} :
    r.result = .ok total ↔ (∀ h ∈ r, h.error? = none) ∧ total = r.totals := by
  rw [result, ← failures_eq_nil_iff]
  by_cases h : r.failures = []
  · simp [h, eq_comm]
  · simp [h]

/-- Otherwise it is told which hosts failed. -/
theorem result_eq_error_iff {e : FleetError} :
    r.result = .error e ↔ (∃ h ∈ r, h.error? ≠ none) ∧ e = ⟨r.length, r.failures⟩ := by
  have hfailed : (∃ h ∈ r, h.error? ≠ none) ↔ r.failures ≠ [] := by
    rw [Ne, failures_eq_nil_iff]
    push Not
    rfl
  rw [result, hfailed]
  by_cases h : r.failures = []
  · simp [h]
  · rw [if_neg (by simpa using h)]
    exact ⟨fun he => ⟨h, (Except.error.inj he).symm⟩, fun he => he.2 ▸ rfl⟩

end FleetReport

theorem HostReport.error?_ofOutcome (host : String) (o : Outcome) :
    (ofOutcome host o).error? = o.failure? := by
  rcases o with _ | ⟨_ | _⟩ <;> rfl

theorem HostReport.counts_ofOutcome (host : String) (o : Outcome) :
    (ofOutcome host o).counts = o.counts := by
  rcases o with _ | ⟨_ | _⟩ <;> rfl

theorem HostReport.host_ofOutcome (host : String) (o : Outcome) :
    (ofOutcome host o).host = host := by
  rcases o with _ | ⟨_ | _⟩ <;> rfl

/-! ### All hosts are as if alone -/

namespace Fleet

/-- There are reports when all work has come to its end. -/
theorem isSome_reports? {f : Fleet σ} :
    f.reports?.isSome ↔ ∀ w ∈ f.hands, w.outcome?.isSome := by
  rw [reports?]
  split <;> simp_all

section

variable (T : Target σ) {settings : Settings} {tasks : List Task} {bus? : Option Bus}
  {hosts : List (FleetHost σ)} {turns : List Turn} {r : FleetReport}

/-- In a fleet that has come to its end each worker has come to what its host comes to alone. -/
theorem of_over
    (hr : ((start settings tasks bus? hosts).run T turns).reports? = some r) :
    ((start settings tasks bus? hosts).run T turns).hands.map
        (fun w => (w.host, w.outcome?.getD none, w.record)) =
      hosts.map fun h => (h.name, h.alone T settings tasks) := by
  have hover := isSome_reports?.1 (Option.isSome_iff_exists.2 ⟨r, hr⟩)
  have hfinish := finish_run (T := T) (f := start settings tasks bus? hosts) turns
  calc
    _ = ((start settings tasks bus? hosts).run T turns).hands.map
        fun w => (w.host, w.finish T) := by
      refine List.map_congr_left fun w hw => ?_
      obtain ⟨o, ho⟩ := Option.isSome_iff_exists.1 (hover w hw)
      rw [w.finish_of_outcome T ho, ho]
      rfl
    _ = _ := by
      rw [hfinish, start, List.map_map]
      rfl

/-- So the reports are those of the hosts alone. -/
theorem reports_eq
    (hr : ((start settings tasks bus? hosts).run T turns).reports? = some r) :
    r = hosts.map fun h => .ofOutcome h.name (h.alone T settings tasks).1 := by
  have hover := isSome_reports?.1 (Option.isSome_iff_exists.2 ⟨r, hr⟩)
  have hwork := congrArg (List.map fun x => HostReport.ofOutcome x.1 x.2.1) (of_over T hr)
  rw [reports?, if_pos (by simpa using hover), Option.some.injEq] at hr
  subst hr
  simpa [Function.comp_def] using hwork

/-- What a worker has published is what is told of its host alone. -/
theorem own_eq (hbus : bus?.isSome)
    (hr : ((start settings tasks bus? hosts).run T turns).reports? = some r) {i : Nat}
    {h : FleetHost σ} (hi : hosts[i]? = some h) :
    ((start settings tasks bus? hosts).run T turns).own i =
      (h.alone T settings tasks).2.told.map fun what => (some h.name, what) := by
  have htells : ((start settings tasks bus? hosts).run T turns).Tells := told_run (fun j w hw => by
    simp only [start, List.getElem?_map] at hw
    obtain ⟨h', -, rfl⟩ := Option.map_eq_some_iff.1 hw
    rfl) hbus turns
  have hget := congrArg (·[i]?) (of_over T hr)
  simp only [List.getElem?_map, hi, Option.map_some] at hget
  obtain ⟨w, hw, heq⟩ := Option.map_eq_some_iff.1 hget
  rw [Prod.mk.injEq, Prod.mk.injEq] at heq
  rw [htells i w hw, heq.1, heq.2.2]

end

variable (T : Target σ) (settings : Settings) (tasks : List Task) (bus? : Option Bus)
  (hosts : List (FleetHost σ)) (turns : List Turn) (order : List Nat)

/-- Hosts that are provisioned at the same time, with workers that have nothing in common but their
orders and a bus, are each provisioned as if alone, whatever turns the workers get and whatever is
done at the bus meanwhile.  All turns can be followed by others that bring all work to its end; and
when it is over the reports stand in the order of the hosts, each says what its host comes to alone,
as much was sent to each host in the same order and as much was left there, and the part that its
worker has in what was published is what it tells alone.  The same reports are given if turns end
before the work does, and by hosts that are provisioned one after another.

Only a worker that dies makes a difference there.  At the same time its death is the failure of its
host.  One after another each host up to the one where it dies is provisioned as if alone, but then
there is no more of anything, as there is none if that host is provisioned alone.

All reports together come to the sum of all counts if no host failed, and else to the failures, in
order. -/
theorem as_alone :
    let alone := FleetHost.alone T settings tasks
    let fleet := (start settings tasks bus? hosts).run T turns
    let reports : FleetReport := hosts.map fun h => .ofOutcome h.name (alone h).1
    let played := provisionFleet T.recorder settings tasks order (hosts.map FleetHost.recorded)
    (∃ more, (fleet.run T more).reports?.isSome) ∧
    (∀ r, fleet.reports? = some r → r = reports ∧
      fleet.hands.map Hand.record = hosts.map (fun h => (alone h).2) ∧
      (bus?.isSome → ∀ i h, hosts[i]? = some h →
        fleet.own i = (alone h).2.told.map fun what => (some h.name, what))) ∧
    (settings.atOnce hosts ∨ (∀ h ∈ hosts, (alone h).1.isSome) →
      played = ⟨some reports, hosts.map fun h => (alone h).2⟩) ∧
    (settings.atOnce hosts = false → ∀ before h after, hosts = before ++ h :: after →
      (∀ h' ∈ before, (alone h').1.isSome) → (alone h).1 = none →
      played = ⟨none, before.map (fun h => (alone h).2) ++
        (alone h).2 :: after.map fun h => h.recorded.place⟩) ∧
    (∀ total, reports.result = .ok total ↔ (∀ h ∈ hosts, (alone h).1.failure? = none) ∧
      total = ⟨(hosts.map fun h => (alone h).1.counts.executed).sum,
        (hosts.map fun h => (alone h).1.counts.cached).sum,
        (hosts.map fun h => (alone h).1.counts.invalidated).sum⟩) ∧
    (∀ e, reports.result = .error e ↔ (∃ h ∈ hosts, (alone h).1.failure? ≠ none) ∧
      e = ⟨hosts.length,
        hosts.filterMap fun h => (alone h).1.failure?.map fun why => (h.name, why)⟩) := by
  intro alone fleet reports played
  refine ⟨?_, fun r hr => ⟨reports_eq T hr, ?_, fun hbus i h hi => own_eq T hbus hr hi⟩,
    FleetHost.provision_eq T settings tasks hosts order, ?_, fun total => ?_, fun e => ?_⟩
  · obtain ⟨more, hmore⟩ := exists_over fleet T
    exact ⟨more, isSome_reports?.2 hmore⟩
  · have hrecords := congrArg (List.map fun x => x.2.2) (of_over T hr)
    simpa [Function.comp_def] using hrecords
  · rintro honce before h after rfl hbefore hdead
    exact FleetHost.provision_of_dead T settings tasks order honce hbefore hdead
  · rw [FleetReport.result_eq_ok_iff, FleetReport.totals, Counts.sum_eq]
    simp [reports, HostReport.error?_ofOutcome, HostReport.counts_ofOutcome, Function.comp_def,
      alone]
  · rw [FleetReport.result_eq_error_iff, FleetReport.failures]
    simp [reports, HostReport.error?_ofOutcome, HostReport.host_ofOutcome, List.filterMap_map,
      alone]

end Fleet

/-! ### Three hosts -/

/-- A host that meets every script in the same way, or makes whoever asks die. -/
def Target.steady : Target (Option Reply) where
  ask _ reply? := (reply?, reply?)
  reset reply? := (.ok (), reply?)
  files _ := ∅
  clock _ _ := ""

/-- Three hosts.  The first cannot be reached, and whoever asks the second dies. -/
def Fleet.trio : List (FleetHost (Option Reply)) :=
  [⟨"a", "root", some (.refused .notStarted)⟩, ⟨"b", "root", none⟩, ⟨"c", "root", some .silent⟩]

/-- What each of them comes to alone if there are no tasks. -/
theorem Fleet.alone_trio (parallelHosts : Bool) :
    trio.map (FleetHost.alone .steady { parallelHosts } []) =
    [(some (.error (.transport .notStarted)), ⟨some (.refused .notStarted),
        [.call ⟨"id -nG", []⟩],
        [.hostStarted 0 false, .hostFinished 0 0 0 (some "process was not started")]⟩),
      (none, ⟨none, [.call ⟨"id -nG", []⟩], [.hostStarted 0 false]⟩),
      (some (.ok .zero), ⟨some .silent, [.call ⟨"id -nG", []⟩,
          .call ⟨strictShell false (setupScript {} "root"), []⟩, .reset,
          .call ⟨Cache.listingScript "/var/lib/strata", []⟩],
        [.hostStarted 0 false, .hostFinished 0 0 0 none]⟩)] := by
  with_unfolding_all rfl

/-- All are provisioned at the same time; the last begins, and goes on when the others have failed.
One after another they are not reported on, and the last is not asked for anything. -/
theorem Fleet.trio_as_alone : ∃ more,
    let fleet := (start {} [] (some .empty) trio).run .steady
      (.worker 2 "1" :: .worker 0 "2" :: .worker 0 "3" :: .worker 1 "4" :: .worker 1 "5" :: more)
    fleet.reports? = some [⟨"a", .zero, some (.transport .notStarted)⟩,
        ⟨"b", .zero, some (.transport (.io "host thread panicked"))⟩, ⟨"c", .zero, none⟩] ∧
      fleet.own 2 = [(some "c", .hostStarted 0 false), (some "c", .hostFinished 0 0 0 none)] ∧
      provisionFleet Target.steady.recorder { parallelHosts := false } [] []
          (trio.map FleetHost.recorded) =
        ⟨none, [⟨some (.refused .notStarted), [.call ⟨"id -nG", []⟩],
            [.hostStarted 0 false, .hostFinished 0 0 0 (some "process was not started")]⟩,
          ⟨none, [.call ⟨"id -nG", []⟩], [.hostStarted 0 false]⟩, ⟨some .silent, [], []⟩]⟩ := by
  obtain ⟨more, hmore⟩ := (as_alone .steady {} [] (some .empty) trio
    [.worker 2 "1", .worker 0 "2", .worker 0 "3", .worker 1 "4", .worker 1 "5"] []).1
  obtain ⟨r, hr⟩ := Option.isSome_iff_exists.1 hmore
  rw [← run_append] at hr
  obtain ⟨-, hover, -⟩ := as_alone .steady {} [] (some .empty) trio
    ([.worker 2 "1", .worker 0 "2", .worker 0 "3", .worker 1 "4", .worker 1 "5"] ++ more) []
  obtain ⟨hreports, -, hown⟩ := hover r hr
  obtain ⟨-, -, -, hinTurn, -⟩ := as_alone .steady { parallelHosts := false } [] none trio [] []
  have halone := alone_trio false
  have halone' := alone_trio true
  simp only [trio, List.map_cons, List.map_nil, List.cons.injEq, and_true] at halone halone'
  obtain ⟨hfirst, hsecond, -⟩ := halone
  obtain ⟨hfirst', hsecond', hthird'⟩ := halone'
  refine ⟨more, ?_, ?_, ?_⟩
  · refine hr.trans (congrArg some (hreports.trans ?_))
    simp [trio, hfirst', hsecond', hthird', HostReport.ofOutcome, HostReport.workerDied]
  · refine (hown rfl 2 _ rfl).trans ?_
    rw [hthird']
    rfl
  · refine (hinTurn rfl [_] _ [_] rfl ?_ ?_).trans ?_
    · simp [hfirst]
    · rw [hsecond]
    · simp [hfirst, hsecond, FleetHost.recorded]

end Provisioning
