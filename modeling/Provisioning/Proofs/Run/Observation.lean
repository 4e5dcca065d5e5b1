import Mathlib.Data.List.Basic
import Provisioning.Event.Bus
import Provisioning.Proofs.Run.Failure
import Provisioning.Run.Fleet
import Provisioning.Run.Log

/-!
# Observation does not influence a run

What a run tells goes to a bus, if there is one, and what its commands print goes into logs, which
are written through sessions of their own on the same host.  Neither has any influence on the run:
of two runs on hosts that meet all scripts alike but those that write logs, with or without a bus,
each does what the other does.

* `Script.Alike` : two scripts that differ in nothing but what is said of logs;
* `Runner.alike_provision` : what is left of a run after a log was written does not depend on what
  came of that, but for the complaint;
* `Target.Alike` : hosts that meet all scripts alike but those that write logs;
* `Script.Alike.watched` : like scripts on like hosts;
* `Runner.unobserved` : two runs of the same tasks.
-/

namespace Provisioning

/-! ### Scripts that write logs -/

/-- Whether a script is one of those that write the log of a command. -/
def Call.Writes (dir sum : String) (call : Call) : Prop :=
  call.shell = Log.writeScript dir sum ∨ call.shell = Log.finalizeScript dir sum

/-- Whether a script is one of those that write a log. -/
def Call.Relays (call : Call) : Prop :=
  ∃ dir sum, call.Writes dir sum

/-- The scripts that write logs begin in two ways, and others do not begin so. -/
theorem not_relays_of_head {shell : String} {c : Char} (h : shell.toList.head? = some c)
    (hwrite : c ≠ 'c') (hfinalize : c ≠ 'm') : ¬ (Call.mk shell []).Relays := by
  rintro ⟨dir, sum, he | he⟩
  · obtain rfl : shell = Log.writeScript dir sum := he
    exact hwrite (by simpa [Log.writeScript] using h.symm)
  · obtain rfl : shell = Log.finalizeScript dir sum := he
    exact hfinalize (by simpa [Log.finalizeScript] using h.symm)

theorem not_relays_strictShell (elevate : Bool) (script : String) :
    ¬ (Call.mk (strictShell elevate script) []).Relays :=
  not_relays_of_head (head_strictShell elevate script) (by cases elevate <;> decide)
    (by cases elevate <;> decide)

/-! ### Like scripts -/

namespace Script

variable {α β : Type}

/-- Two scripts that ask for the same, tell the same and have the same logs written, and whatever
comes of a log go on alike; but each may complain about logs at any time. -/
inductive Alike : Script α → Script α → Prop
  | done (a : α) : Alike (.done a) (.done a)
  | ask {call : Call} {next next' : Reply → Script α} (hcall : ¬ call.Relays)
      (hnext : ∀ reply, Alike (next reply) (next' reply)) : Alike (.ask call next) (.ask call next')
  | reset {next next' : Except TransportError Unit → Script α}
      (hnext : ∀ result, Alike (next result) (next' result)) : Alike (.reset next) (.reset next')
  | tell (what : Happening) {next next' : Script α} (hnext : Alike next next') :
      Alike (.tell what next) (.tell what next')
  | log (job : LogJob) {next next' : Except LogError Unit → Script α}
      (hnext : ∀ result result', Alike (next result) (next' result')) :
      Alike (.log job next) (.log job next')
  | left (task sum error : String) {next next' : Script α} (hnext : Alike next next') :
      Alike (.tell (.logFailed task sum error) next) next'
  | right (task sum error : String) {next next' : Script α} (hnext : Alike next next') :
      Alike next (.tell (.logFailed task sum error) next')

theorem Alike.bind {s s' : Script α} {f f' : α → Script β} (hs : s.Alike s')
    (hf : ∀ a, (f a).Alike (f' a)) : (s >>= f).Alike (s' >>= f') := by
  induction hs with
  | done a => exact hf a
  | ask hcall _ ih => exact .ask hcall ih
  | reset _ ih => exact .reset ih
  | tell what _ ih => exact .tell what ih
  | log job _ ih => exact .log job ih
  | left task sum error _ ih => exact .left task sum error ih
  | right task sum error _ ih => exact .right task sum error ih

/-- A script that has no log written is like itself. -/
theorem Only.alike {P : Exchange → Prop} {s : Script α} (hs : s.Only P)
    (hcall : ∀ call reply, P (.asked call reply) → ¬ call.Relays)
    (hlog : ∀ job result, ¬ P (.logged job result)) : s.Alike s := by
  induction s with
  | done a => exact .done a
  | ask call next ih =>
    exact .ask (hcall call (.refused .notStarted) (hs _).1) fun reply => ih reply (hs reply).2
  | reset next ih => exact .reset fun result => ih result (hs result).2
  | tell what next ih => exact .tell what (ih hs.2)
  | log job next ih => exact absurd (hs (.ok ())).1 (hlog job _)

end Script

namespace Runner

variable {r : Runner}

/-- What is done with the reply to the script of a command, whatever comes of its log. -/
theorem alike_account (t dir : String) (a : PlannedAction) (reply : Reply) :
    (account t dir a reply).Alike (account t dir a reply) := by
  cases reply with
  | refused e => exact .done _
  | session s =>
    have htell : (tellLines t a.sum (published (allReaderSteps s))).Alike
        (tellLines t a.sum (published (allReaderSteps s))) := by
      induction published (allReaderSteps s) with
      | nil => exact .done ()
      | cons l ls ih => exact .tell _ ih
    refine htell.bind fun _ => .log _ fun result result' => ?_
    -- the complaint is all that depends on what came of the log
    cases result with
    | ok _ =>
      cases result' with
      | ok _ => exact .done _
      | error e' => exact .right _ _ _ (.done _)
    | error e =>
      cases result' with
      | ok _ => exact .left _ _ _ (.done _)
      | error e' => exact .left _ _ _ (.right _ _ _ (.done _))

theorem alike_bookkeep (task action : String) {script : String}
    (h : ¬ (Call.mk script []).Relays) :
    (bookkeep task action script).run.Alike (bookkeep task action script).run := by
  rw [run_bookkeep]
  exact .ask h fun reply => .done _

theorem alike_settle (t : String) (a : PlannedAction) (ending : Ending) :
    (settle t (r.dirOf t) a ending).run.Alike (settle t (r.dirOf t) a ending).run := by
  rw [run_settle]
  refine .tell _ ?_
  cases verdict t a ending.exit with
  | ok u =>
    exact .ask (not_relays_of_head (head_doneScript _ _ _) (by decide) (by decide))
      fun reply => .done _
  | error e =>
    exact .ask (not_relays_of_head (head_failedScript _ _ _) (by decide) (by decide))
      fun reply => .done _

theorem alike_perform (d : Deed) : (r.perform d).run.Alike (r.perform d).run := by
  cases d with
  | makeDir t =>
    exact alike_bookkeep _ _ (not_relays_of_head (head_makeDirScript _) (by decide) (by decide))
  | skip t a => exact .tell _ (.done _)
  | sweep t stale =>
    cases stale with
    | nil => exact .done _
    | cons s ss =>
      rw [run_sweep]
      refine .ask (not_relays_of_head (head_deleteScript _ _) (by decide) (by decide))
        fun reply => ?_
      cases bookkept t "delete stale markers" reply with
      | error e => exact .done _
      | ok u => exact .tell _ (.done _)
  | execute t a =>
    rw [perform_execute, run_execute]
    refine .tell _ (.ask (not_relays_strictShell _ _) fun reply => ?_)
    exact (alike_account _ _ _ _).bind fun ending => alike_settle _ _ _

theorem alike_performAll (ds : List Deed) :
    (r.performAll ds).run.Alike (r.performAll ds).run := by
  induction ds with
  | nil => exact .done _
  | cons d ds ih =>
    rw [performAll, ExceptT.run_bind]
    refine (alike_perform d).bind fun result => ?_
    cases result with
    | error e => exact .done _
    | ok u => exact ih

theorem alike_runTasks (tasks : List Task) (inv : Inventory) (counts : Counts) :
    (r.runTasks tasks inv counts).Alike (r.runTasks tasks inv counts) := by
  induction tasks generalizing inv counts with
  | nil => exact .done _
  | cons task tasks ih =>
    rw [runTasks_cons]
    refine (alike_performAll _).bind fun result => ?_
    cases result with
    | error e => exact .done _
    | ok u => exact ih _ _

/-- No script before the first deed writes a log. -/
theorem not_relays_of_mem_opening {call : Call} (h : call.shell ∈ r.opening) : ¬ call.Relays := by
  have hshell : ¬ (Call.mk call.shell []).Relays := by
    simp only [opening, List.mem_cons, List.not_mem_nil, or_false] at h
    rcases h with h | h | h
    · rw [h]
      exact not_relays_of_head (c := 'i') rfl (by decide) (by decide)
    · rw [h]
      exact not_relays_strictShell _ _
    · rw [h]
      exact not_relays_of_head (Cache.head_listingScript _) (by decide) (by decide)
  exact hshell

/-- What is left of a run after a log was written does not depend on what came of that, but for the
complaint. -/
theorem alike_provision (tasks : List Task) :
    (r.provision tasks).Alike (r.provision tasks) := by
  have hprepare : r.prepareIfManaged.Alike r.prepareIfManaged :=
    opens_prepareIfManaged.alike (fun call reply h => not_relays_of_mem_opening h)
      (fun job result h => h)
  have hlist : (Script.ofTalk (takeInventory r.settings.cacheRoot)).Alike
      (Script.ofTalk (takeInventory r.settings.cacheRoot)) := by
    rw [ofTalk_takeInventory]
    exact .ask (not_relays_of_head (Cache.head_listingScript _) (by decide) (by decide))
      fun reply => .done _
  have hhost : (r.runHost tasks).Alike (r.runHost tasks) := by
    rw [runHost]
    refine hprepare.bind fun result => ?_
    cases result with
    | error e => exact .done _
    | ok u =>
      refine hlist.bind fun result => ?_
      cases result with
      | error e => exact .done _
      | ok inv => exact alike_runTasks _ _ _
  exact .tell _ (hhost.bind fun ended => .tell _ (.done _))

end Runner

/-! ### Hosts and those who watch -/

/-- A host, as far as a run has to do with it. -/
structure Target (σ : Type) where
  /-- How it meets a script.  If there is no reply then whoever asks dies of it. -/
  ask : Call → σ → Option Reply × σ
  /-- How open sessions are closed. -/
  reset : σ → Except TransportError Unit × σ
  /-- Its files. -/
  files : σ → Files
  /-- The time at which a line of output is handed on, by its number. -/
  clock : σ → Nat → String

/-- A run under way: the host, the bus if there is one, what the run has sent but for the writing of
logs, and what it has published. -/
structure Watch (σ : Type) where
  /-- The host. -/
  place : σ
  /-- The bus. -/
  bus? : Option Bus
  /-- What was sent, in order. -/
  sent : List Request := []
  /-- What was published, in order. -/
  published : List Happening := []

/-- Those who watch a run. -/
structure Audience (σ : Type) where
  /-- The name of the host. -/
  host : String
  /-- The time of an event. -/
  time : Watch σ → String
  /-- What was done at the bus since the last event: who subscribed, received or cancelled. -/
  meanwhile : Watch σ → Bus → Bus

namespace Target

variable {σ τ : Type}

/-- The host as one that is talked with. -/
def host (T : Target σ) : Talk.Host (OptionT (StateM σ)) where
  ask call := OptionT.mk (T.ask call)
  reset := OptionT.mk fun s =>
    let (result, s) := T.reset s
    (some result, s)

/-- Has a log written by a worker of its own, whose death the run survives. -/
def relay (T : Target σ) (job : LogJob) (s : σ) : Except LogError Unit × σ :=
  let lines := job.lines.mapIdx fun i l => l.render (T.clock s i)
  match ((Log.write job.dir job.sum lines).runWith T.host).run s with
  | (some result, s) => (result, s)
  | (none, s) => (.error .died, s)

end Target

/-- Publishes an event, if there is a bus. -/
def Watch.publish {σ : Type} (audience : Audience σ) (what : Happening) (w : Watch σ) : Watch σ :=
  match w.bus? with
  | none => w
  | some bus =>
    { w with
      bus? := some ((audience.meanwhile w bus).publish ⟨audience.time w, some audience.host, what⟩)
      published := w.published ++ [what] }

/-- How a run is met on a host under the eyes of an audience. -/
def Target.handler {σ : Type} (T : Target σ) (audience : Audience σ) :
    Script.Handler (OptionT (StateM (Watch σ))) where
  ask call := OptionT.mk fun w =>
    let (reply?, place) := T.ask call w.place
    (reply?, { w with place, sent := w.sent ++ [.call call] })
  reset := OptionT.mk fun w =>
    let (result, place) := T.reset w.place
    (some result, { w with place, sent := w.sent ++ [.reset] })
  tell what := OptionT.mk fun w => (some (), w.publish audience what)
  log job := OptionT.mk fun w =>
    let (result, place) := T.relay job w.place
    (some result, { w with place })

/-- What comes of a script on a host: the result, if the run did not die, and how all was left. -/
def Script.watched {α σ : Type} (T : Target σ) (audience : Audience σ) (s : Script α)
    (w : Watch σ) : Option α × Watch σ :=
  (s.runWith (T.handler audience)).run w

/-! ### How scripts are met -/

/-- After something that may have been died of. -/
theorem OptionT.run_bind_apply {α β σ : Type} (x : OptionT (StateM σ) α)
    (f : α → OptionT (StateM σ) β) (w : σ) : (x >>= f).run w =
      match x.run w with
      | (some a, w') => (f a).run w'
      | (none, w') => (none, w') := by
  rw [OptionT.run_bind]
  change (x.run w).1.elim (pure none) (fun a => (f a).run) (x.run w).2 = _
  rcases x.run w with ⟨_ | a, w'⟩ <;> rfl

namespace Script

variable {α σ : Type} {T : Target σ} {audience : Audience σ} {w : Watch σ}

theorem watched_done (a : α) : (done a).watched T audience w = (some a, w) := rfl

theorem watched_ask (call : Call) (next : Reply → Script α) :
    (ask call next).watched T audience w =
      match T.ask call w.place with
      | (some reply, place) =>
        (next reply).watched T audience { w with place, sent := w.sent ++ [.call call] }
      | (none, place) => (none, { w with place, sent := w.sent ++ [.call call] }) := by
  have hask : ((T.handler audience).ask call).run w =
      ((T.ask call w.place).1,
        { w with place := (T.ask call w.place).2, sent := w.sent ++ [.call call] }) := rfl
  rw [watched, runWith, OptionT.run_bind_apply, hask]
  rcases T.ask call w.place with ⟨_ | reply, place⟩ <;> rfl

theorem watched_reset (next : Except TransportError Unit → Script α) :
    (reset next).watched T audience w =
      (next (T.reset w.place).1).watched T audience
        { w with place := (T.reset w.place).2, sent := w.sent ++ [.reset] } := rfl

theorem watched_tell (what : Happening) (next : Script α) :
    (tell what next).watched T audience w =
      next.watched T audience (w.publish audience what) := rfl

theorem watched_log (job : LogJob) (next : Except LogError Unit → Script α) :
    (log job next).watched T audience w =
      (next (T.relay job w.place).1).watched T audience
        { w with place := (T.relay job w.place).2 } := rfl

end Script

/-! ### Writing a log -/

/-- Whether a talk asks for nothing but scripts that write a log. -/
def Talk.Relays {α : Type} : Talk α → Prop
  | done _ => True
  | ask call next => call.Relays ∧ ∀ reply, (next reply).Relays
  | reset _ => False

theorem Talk.relays_capture {α : Type} {shell : String}
    {next : Except TransportError Output → Talk α} (hs : Call.Relays ⟨shell, []⟩)
    (hn : ∀ output, (next output).Relays) :
    (capture shell >>= next).Relays :=
  ⟨hs, fun reply => hn reply.output⟩

theorem Log.relays_finalize (dir sum : String) : (finalize dir sum).Relays := by
  refine Talk.relays_capture ⟨dir, sum, .inr rfl⟩ fun output => ?_
  cases output with
  | error e => trivial
  | ok out =>
    dsimp only
    split <;> trivial

theorem Log.relays_write (dir sum : String) (lines : List String) :
    (write dir sum lines).Relays := by
  refine ⟨⟨dir, sum, .inl rfl⟩, fun reply => ?_⟩
  cases reply with
  | refused e => trivial
  | session s =>
    dsimp only
    split
    · trivial
    · exact relays_finalize dir sum

/-! ### Like hosts -/

namespace Target

variable {σ τ : Type}

/-- The writing of a log concerns no other files than those of the log. -/
def Apart (T : Target σ) : Prop :=
  ∀ (dir sum : String) (call : Call) (s : σ), call.Writes dir sum →
    ∀ p, p ≠ Cache.logPath dir sum → p ≠ Cache.partialLogPath dir sum →
      (p ∈ T.files (T.ask call s).2 ↔ p ∈ T.files s)

/-- What every script keeps that writes a log is kept by all of them together. -/
theorem keeps_of_relays {α : Type} {T : Target σ} {P : σ → Prop}
    (hP : ∀ call s, call.Relays → P s → P (T.ask call s).2) {t : Talk α} (ht : t.Relays) {s : σ}
    (hs : P s) : P ((t.runWith T.host).run s).2 := by
  induction t generalizing s with
  | done a => exact hs
  | reset next => exact absurd ht id
  | ask call next ih =>
    have hask : (T.host.ask call).run s = ((T.ask call s).1, (T.ask call s).2) := rfl
    have hkept := hP call s ht.1 hs
    rw [Talk.runWith, OptionT.run_bind_apply, hask]
    generalize T.ask call s = answer at hkept
    rcases answer with ⟨_ | reply, s'⟩
    · exact hkept
    · exact ih reply (ht.2 reply) hkept

theorem relay_keeps {T : Target σ} {P : σ → Prop} {s : σ}
    (hP : ∀ call s, call.Relays → P s → P (T.ask call s).2) (job : LogJob) (hs : P s) :
    P (T.relay job s).2 := by
  have hkept := keeps_of_relays hP (Log.relays_write job.dir job.sum
    (job.lines.mapIdx fun i l => l.render (T.clock s i))) hs
  rw [relay]
  split <;> simp_all

theorem Apart.markers {T : Target σ} (h : T.Apart) (job : LogJob) (s : σ) :
    (T.files (T.relay job s).2).markers = (T.files s).markers := by
  refine relay_keeps (P := fun s' => (T.files s').markers = (T.files s).markers) ?_ job rfl
  rintro call s' ⟨dir, sum, hshell⟩ hs'
  exact (Files.markers_eq_of_log (h dir sum call s' hshell)).trans hs'

/-- Two hosts are alike in two states if these are related, by a relation that says what the states
have in common, and there are the same markers. -/
structure Like (A : Target σ) (B : Target τ) (R : σ → τ → Prop) (s : σ) (t : τ) : Prop where
  /-- The states have something in common. -/
  rel : R s t
  /-- There are the same markers. -/
  markers : (A.files s).markers = (B.files t).markers

/-- Two hosts meet all scripts alike but those that write logs.  These they may meet as they like,
if only nothing that other scripts depend on depends on them. -/
structure Alike (A : Target σ) (B : Target τ) (R : σ → τ → Prop) : Prop where
  ask : ∀ {call : Call} {s : σ} {t : τ}, ¬ call.Relays → A.Like B R s t →
    (A.ask call s).1 = (B.ask call t).1 ∧ A.Like B R (A.ask call s).2 (B.ask call t).2
  reset : ∀ {s : σ} {t : τ}, A.Like B R s t →
    (A.reset s).1 = (B.reset t).1 ∧ A.Like B R (A.reset s).2 (B.reset t).2
  left : ∀ {call : Call} {s : σ} {t : τ}, call.Relays → R s t → R (A.ask call s).2 t
  right : ∀ {call : Call} {s : σ} {t : τ}, call.Relays → R s t → R s (B.ask call t).2
  apart : A.Apart
  apart' : B.Apart

variable {A : Target σ} {B : Target τ} {R : σ → τ → Prop}

/-- Hosts stay alike when a log is written on both, whatever comes of that on either. -/
theorem Like.relay (hAB : A.Alike B R) {s : σ} {t : τ} (h : A.Like B R s t) (job : LogJob) :
    A.Like B R (A.relay job s).2 (B.relay job t).2 where
  rel := by
    refine relay_keeps (P := fun t' => R (A.relay job s).2 t') (fun _ _ => hAB.right) job ?_
    exact relay_keeps (P := fun s' => R s' t) (fun _ _ => hAB.left) job h.rel
  markers := by rw [hAB.apart.markers, hAB.apart'.markers, h.markers]

end Target

/-! ### Like runs -/

/-- Whether a happening is the complaint that a log could not be written. -/
def Happening.complains : Happening → Bool
  | logFailed .. => true
  | _ => false

/-- What was published, without the complaints about logs. -/
def Watch.news {σ : Type} (w : Watch σ) : List Happening := w.published.filter (!·.complains)

namespace Watch

variable {σ τ : Type}

/-- Two runs under way agree on the host, on what was sent and, if each has a bus, on what was
published but for complaints about logs. -/
structure Agrees (A : Target σ) (B : Target τ) (R : σ → τ → Prop) (w : Watch σ) (v : Watch τ) :
    Prop where
  place : A.Like B R w.place v.place
  sent : w.sent = v.sent
  news : w.bus?.isSome → v.bus?.isSome → w.news = v.news

variable {A : Target σ} {B : Target τ} {R : σ → τ → Prop} {w : Watch σ} {v : Watch τ}

@[simp] theorem place_publish (audience : Audience σ) (what : Happening) :
    (w.publish audience what).place = w.place := by
  rw [publish]
  cases w.bus? <;> rfl

@[simp] theorem sent_publish (audience : Audience σ) (what : Happening) :
    (w.publish audience what).sent = w.sent := by
  rw [publish]
  cases w.bus? <;> rfl

@[simp] theorem isSome_publish (audience : Audience σ) (what : Happening) :
    (w.publish audience what).bus?.isSome = w.bus?.isSome := by
  rw [publish]
  cases h : w.bus? <;> simp [h]

theorem news_publish (audience : Audience σ) (what : Happening) (h : w.bus?.isSome) :
    (w.publish audience what).news = w.news ++ [what].filter (!·.complains) := by
  obtain ⟨bus, hbus⟩ := Option.isSome_iff_exists.1 h
  rw [publish, hbus]
  exact List.filter_append _ _

namespace Agrees

/-- Both runs publish the same. -/
theorem publish (h : w.Agrees A B R v) (audience : Audience σ) (audience' : Audience τ)
    (what : Happening) :
    (w.publish audience what).Agrees A B R (v.publish audience' what) where
  place := by simpa using h.place
  sent := by simpa using h.sent
  news hw hv := by
    rw [isSome_publish] at hw hv
    rw [news_publish _ _ hw, news_publish _ _ hv, h.news hw hv]

/-- One of the runs publishes a complaint about a log. -/
theorem complain_left (h : w.Agrees A B R v) (audience : Audience σ) (task sum error : String) :
    (w.publish audience (.logFailed task sum error)).Agrees A B R v where
  place := by simpa using h.place
  sent := by simpa using h.sent
  news hw hv := by
    rw [isSome_publish] at hw
    rw [news_publish _ _ hw, h.news hw hv]
    exact List.append_nil _

theorem complain_right (h : w.Agrees A B R v) (audience : Audience τ) (task sum error : String) :
    w.Agrees A B R (v.publish audience (.logFailed task sum error)) where
  place := by simpa using h.place
  sent := by simpa using h.sent
  news hw hv := by
    rw [isSome_publish] at hv
    rw [news_publish _ _ hv, h.news hw hv]
    exact (List.append_nil _).symm

end Agrees

end Watch

variable {σ τ : Type} {A : Target σ} {B : Target τ} {R : σ → τ → Prop}

/-- Like scripts on like hosts, whoever watches: both come to the same result, or both are died of,
and agree in what they leave. -/
theorem Script.Alike.watched {α : Type} {s s' : Script α} (h : s.Alike s') (hAB : A.Alike B R)
    (audience : Audience σ) (audience' : Audience τ) {w : Watch σ} {v : Watch τ}
    (hwv : w.Agrees A B R v) :
    (s.watched A audience w).1 = (s'.watched B audience' v).1 ∧
      (s.watched A audience w).2.Agrees A B R (s'.watched B audience' v).2 := by
  induction h generalizing w v with
  | done a =>
    rw [watched_done, watched_done]
    exact ⟨rfl, hwv⟩
  | @ask call next next' hcall hnext ih =>
    obtain ⟨hreply, hplace⟩ := hAB.ask hcall hwv.place
    have hsent : w.sent ++ [.call call] = v.sent ++ [.call call] := by rw [hwv.sent]
    rw [watched_ask, watched_ask]
    generalize A.ask call w.place = answer at hreply hplace
    generalize B.ask call v.place = answer' at hreply hplace
    obtain ⟨reply?, place⟩ := answer
    obtain ⟨reply?', place'⟩ := answer'
    obtain rfl : reply? = reply?' := hreply
    cases reply? with
    | none => exact ⟨rfl, hplace, hsent, hwv.news⟩
    | some reply => exact ih reply ⟨hplace, hsent, hwv.news⟩
  | @reset next next' hnext ih =>
    obtain ⟨hresult, hplace⟩ := hAB.reset hwv.place
    rw [watched_reset, watched_reset, hresult]
    exact ih _ ⟨hplace, by simp [hwv.sent], hwv.news⟩
  | tell what _ ih =>
    rw [watched_tell, watched_tell]
    exact ih (hwv.publish audience audience' what)
  | log job _ ih =>
    rw [watched_log, watched_log]
    exact ih _ _ ⟨hwv.place.relay hAB job, hwv.sent, hwv.news⟩
  | left task sum error _ ih =>
    rw [watched_tell]
    exact ih (hwv.complain_left audience task sum error)
  | right task sum error _ ih =>
    rw [watched_tell]
    exact ih (hwv.complain_right audience' task sum error)

/-- A bus stays attached. -/
theorem Script.isSome_watched {α : Type} (T : Target σ) (audience : Audience σ) (s : Script α)
    (w : Watch σ) : (s.watched T audience w).2.bus?.isSome = w.bus?.isSome := by
  induction s generalizing w with
  | done a => rw [watched_done]
  | ask call next ih =>
    rw [watched_ask]
    rcases T.ask call w.place with ⟨_ | reply, place⟩
    · rfl
    · exact ih reply _
  | reset next ih => rw [watched_reset, ih]
  | tell what next ih => rw [watched_tell, ih, Watch.isSome_publish]
  | log job next ih => rw [watched_log, ih]

/-- Whoever watches a run, and whatever comes of the logs, the run is the same.  Two runs of the
same tasks on hosts that meet all scripts alike but those that write logs, each with a bus or
without one, come to the same result with the same counts; they send the same but for the writing of
logs; they leave the same markers; and if each has a bus they publish the same but for complaints
about logs. -/
theorem Runner.unobserved (r : Runner) (tasks : List Task) (hAB : A.Alike B R) {s : σ} {t : τ}
    (hst : A.Like B R s t) (audience : Audience σ) (audience' : Audience τ)
    (bus? bus?' : Option Bus) :
    let a := (r.provision tasks).watched A audience ⟨s, bus?, [], []⟩
    let b := (r.provision tasks).watched B audience' ⟨t, bus?', [], []⟩
    a.1 = b.1 ∧ a.2.sent = b.2.sent ∧
      (A.files a.2.place).markers = (B.files b.2.place).markers ∧
      (bus?.isSome → bus?'.isSome → a.2.news = b.2.news) := by
  have hstart : Watch.Agrees A B R ⟨s, bus?, [], []⟩ ⟨t, bus?', [], []⟩ :=
    ⟨hst, rfl, fun _ _ => rfl⟩
  obtain ⟨hresult, hend⟩ := (alike_provision tasks).watched hAB audience audience' hstart
  refine ⟨hresult, hend.sent, hend.place.markers, fun hbus hbus' => hend.news ?_ ?_⟩
  · rw [Script.isSome_watched]
    exact hbus
  · rw [Script.isSome_watched]
    exact hbus'

/-! ### An example -/

open Classical in
/-- A host that does what scripts say and keeps silent, and meets those that write logs in some
way. -/
noncomputable def Target.obedient (meet : Call → Option Reply) : Target Files where
  ask call fs :=
    if call.Relays then (meet call, fs)
    else (some (.saying ""), fs.after (Shell.effect call.shell))
  reset fs := (.ok (), fs)
  files fs := fs
  clock _ _ := ""

theorem Target.apart_obedient (meet : Call → Option Reply) : (obedient meet).Apart := by
  intro dir sum call fs hcall p _ _
  have hrelays : call.Relays := ⟨dir, sum, hcall⟩
  simp only [obedient, if_pos hrelays]

/-- Such hosts are alike, in whatever way they meet the scripts that write logs. -/
theorem Target.alike_obedient (meet meet' : Call → Option Reply) :
    (obedient meet).Alike (obedient meet') fun _ _ => True where
  ask {call s t} hcall h := by
    have hask : ∀ (meet : Call → Option Reply) (fs : Files), (obedient meet).ask call fs =
        (some (.saying ""), fs.after (Shell.effect call.shell)) := fun _ _ => if_neg hcall
    rw [hask, hask]
    exact ⟨rfl, trivial, Files.markers_after_congr h.markers _⟩
  reset h := ⟨rfl, trivial, h.markers⟩
  left _ _ := trivial
  right _ _ := trivial
  apart := apart_obedient meet
  apart' := apart_obedient meet'

/-- One that only looks on. -/
def Audience.idle {σ : Type} : Audience σ := ⟨"host", fun _ => "", fun _ bus => bus⟩

/-- A run on a host where no log can be written, before somebody who can receive one event, and one
on a host where all logs are written, before nobody. -/
theorem Runner.obedient_unobserved :
    let a := (byDefault.provision [.halfway]).watched
      (Target.obedient fun _ => some (.refused .notStarted)) .idle
      ⟨∅, some (Bus.empty.subscribe "" 1).1, [], []⟩
    let b := (byDefault.provision [.halfway]).watched (Target.obedient fun _ => some (.saying ""))
      .idle ⟨∅, some .empty, [], []⟩
    a.1 = b.1 ∧ a.2.sent = b.2.sent ∧ Files.markers a.2.place = Files.markers b.2.place ∧
      a.2.news = b.2.news := by
  obtain ⟨hresult, hsent, hmarkers, hnews⟩ := unobserved byDefault [.halfway]
    (Target.alike_obedient (fun _ => some (.refused .notStarted)) fun _ => some (.saying ""))
    ⟨trivial, rfl⟩ .idle .idle (some (Bus.empty.subscribe "" 1).1) (some .empty)
  exact ⟨hresult, hsent, hmarkers, hnews rfl rfl⟩

end Provisioning
