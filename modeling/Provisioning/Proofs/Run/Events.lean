import Provisioning.Proofs.Run.Counting
import Provisioning.Proofs.Run.Forecast

/-!
# What a run tells

The events of a run that comes to its end are put together by a grammar.  The run begins and ends
with an event of its own; between the two each task has a block, and in the block of a task each
command that is due has one.  Only the last block may be cut short, and what is cut short is told of
as far as it went: a command that was told of as started is told of as finished.

* `CommandBlock`, `CommandBlocks` : what passes for a command, and for commands in order;
* `TaskBlock`, `TaskBlocks` : what passes for a task, and for tasks in order;
* `Runner.told_in_blocks` : a run tells nothing but what its blocks tell.
-/

namespace Provisioning

/-! ### Lines of output -/

/-- The lines of one of the streams of a session. -/
def Session.linesOf (s : Session) : Origin → List String
  | .stdout => (s.stdout?.getD []).lines
  | .stderr => (s.stderr?.getD []).lines

/-- The lines of one of the streams that a script prints to. -/
def Reply.linesOf : Reply → Origin → List String
  | refused _, _ => []
  | session s, origin => s.linesOf origin

/-- Whether lines are those of both streams, each in its order; how the two are mixed is left to the
readers. -/
def Reply.Prints (reply : Reply) (lines : List LogLine) : Prop :=
  ∀ origin, lines.filter (·.origin = origin) = (reply.linesOf origin).map fun text => ⟨origin, text⟩

/-- What the items of two lists are mapped to that are interleaved, if one list is mapped to
nothing. -/
theorem filterMap_interleave_left {α β : Type} {f : α → Option β} (ts : List Origin)
    {out err : List α} (h : ∀ a ∈ err, f a = none) :
    (interleave ts out err).filterMap f = out.filterMap f := by
  fun_induction interleave ts out err with
  | case1 out err => rw [List.filterMap_append, List.filterMap_eq_nil_iff.2 h, List.append_nil]
  | case2 ts err a out ih => rw [List.filterMap_cons, List.filterMap_cons, ih h]
  | case3 ts err ih => exact ih h
  | case4 ts out a err ih =>
    rw [List.forall_mem_cons] at h
    rw [List.filterMap_cons_none h.1, ih h.2]
  | case5 ts out ih => exact ih h

theorem filterMap_interleave_right {α β : Type} {f : α → Option β} (ts : List Origin)
    {out err : List α} (h : ∀ a ∈ out, f a = none) :
    (interleave ts out err).filterMap f = err.filterMap f := by
  fun_induction interleave ts out err with
  | case1 out err => rw [List.filterMap_append, List.filterMap_eq_nil_iff.2 h, List.nil_append]
  | case2 ts err a out ih =>
    rw [List.forall_mem_cons] at h
    rw [List.filterMap_cons_none h.1, ih h.2]
  | case3 ts err ih => exact ih h
  | case4 ts out a err ih => rw [List.filterMap_cons, List.filterMap_cons, ih h]
  | case5 ts out ih => exact ih h

namespace Runner

/-- The line that a step of a reader tells of, if it is one of the given origin. -/
def lineOf (origin : Origin) : ReaderStep → Option LogLine
  | .publish l => if l.origin = origin then some l else none
  | .send _ => none

theorem filter_published (origin : Origin) (steps : List ReaderStep) :
    (published steps).filter (·.origin = origin) = steps.filterMap (lineOf origin) := by
  induction steps with
  | nil => rfl
  | cons step steps ih =>
    cases step with
    | send l => exact ih
    | publish l =>
      show (l :: published steps).filter _ = _
      by_cases h : l.origin = origin
      · rw [List.filter_cons_of_pos (by simpa using h), ih]
        simp [lineOf, h]
      · rw [List.filter_cons_of_neg (by simpa using h), ih]
        simp [lineOf, h]

theorem filterMap_readerSteps (origin : Origin) (s? : Option Stream) :
    (readerSteps origin s?).filterMap (lineOf origin) =
      (s?.getD []).lines.map fun text => ⟨origin, text⟩ := by
  rw [readerSteps]
  induction (s?.getD []).lines with
  | nil => rfl
  | cons text texts ih =>
    rw [List.map_cons, List.flatMap_cons, List.filterMap_append, ih]
    simp [lineOf]

/-- A reader tells of no line of another stream. -/
theorem lineOf_readerSteps {origin origin' : Origin} (h : origin' ≠ origin) (s? : Option Stream) :
    ∀ step ∈ readerSteps origin' s?, lineOf origin step = none := by
  intro step hstep
  obtain ⟨l, hl, hstep⟩ := List.mem_flatMap.1 hstep
  obtain ⟨text, -, rfl⟩ := List.mem_map.1 hl
  rcases List.mem_pair.1 hstep with rfl | rfl
  · simp [lineOf, h]
  · rfl

end Runner

/-- The lines that are told of are those of both streams, each in its order. -/
theorem Session.prints (s : Session) :
    (Reply.session s).Prints (Runner.published (Runner.allReaderSteps s)) := by
  intro origin
  rw [Runner.filter_published, Runner.allReaderSteps]
  cases origin with
  | stdout =>
    rw [filterMap_interleave_left s.turns (Runner.lineOf_readerSteps (by decide) _),
      Runner.filterMap_readerSteps]
    rfl
  | stderr =>
    rw [filterMap_interleave_right s.turns (Runner.lineOf_readerSteps (by decide) _),
      Runner.filterMap_readerSteps]
    rfl

/-! ### Blocks of commands -/

/-- What passes for a command that is due: it is told of as started, its script is sent, its output
is told of, and then perhaps that its log could not be written, and in the end how it finished. -/
inductive CommandBlock (r : Runner) (t : String) (a : PlannedAction) : List Exchange → Reply → Prop
  | intro {reply : Reply} {lines : List LogLine} {xs : List Exchange} (lost? : Option LogError)
      (prints : reply.Prints lines)
      (events_eq : events xs =
        lines.map (fun l => .commandPrinted t a.sum l.origin l.text) ++
          (lost?.toList.map (fun e => .logFailed t a.sum e.message) ++
            [Runner.finished t a ⟨reply.exit, reply.millis⟩])) :
      CommandBlock r t a (.told (.commandStarted t a.index a.sum a.action.label) ::
        .asked ⟨r.wrap a.action.script, []⟩ reply :: xs) reply

/-- The same of commands in order.  If one fails, or its success cannot be marked, no other is
begun. -/
inductive CommandBlocks (r : Runner) (t : String) :
    List PlannedAction → List Exchange → Except RunError Unit → Prop
  | nil : CommandBlocks r t [] [] (.ok ())
  | cons {a : PlannedAction} {as : List PlannedAction} {xs ys : List Exchange} {reply : Reply}
      {res : Except RunError Unit} (first : CommandBlock r t a xs reply)
      (well : reply.exit = .ok 0) (others : CommandBlocks r t as ys res) :
      CommandBlocks r t (a :: as) (xs ++ ys) res
  | cut {a : PlannedAction} {as : List PlannedAction} {xs : List Exchange} {reply : Reply}
      {e : RunError} (first : CommandBlock r t a xs reply) :
      CommandBlocks r t (a :: as) xs (.error e)

variable {r : Runner}

/-- What is told of the output of a command and of its log. -/
theorem Reported.exists_events {t dir sum : String} {reply : Reply} {xs : List Exchange}
    (h : Reported t dir sum reply xs) : ∃ lines lost?, reply.Prints lines ∧
      events xs = lines.map (fun l => .commandPrinted t sum l.origin l.text) ++
        (lost? : Option LogError).toList.map (fun e => .logFailed t sum e.message) := by
  cases h with
  | refused e =>
    refine ⟨[], none, fun origin => ?_, rfl⟩
    cases origin <;> rfl
  | logged s => exact ⟨_, none, s.prints, by simp [events_map_told]⟩
  | unlogged s e => exact ⟨_, some e, s.prints, by simp [events_map_told]⟩

/-- A command block is what has passed for a command when it is marked. -/
theorem Reported.block {t dir : String} {a : PlannedAction} {reply : Reply} {xs : List Exchange}
    (h : Reported t dir a.sum reply xs) (call : Call) (marked : Reply) :
    CommandBlock r t a (.told (.commandStarted t a.index a.sum a.action.label) ::
      .asked ⟨r.wrap a.action.script, []⟩ reply :: (xs ++
        [.told (Runner.finished t a ⟨reply.exit, reply.millis⟩), .asked call marked])) reply := by
  obtain ⟨lines, lost?, hprints, hevents⟩ := h.exists_events
  exact .intro lost? hprints (by simp [hevents])

theorem Deed.Concludes.block {t : String} {a : PlannedAction} {xs : List Exchange}
    {res : Except RunError Unit} (h : (Deed.execute t a).Concludes r xs res) :
    ∃ reply, CommandBlock r t a xs reply ∧ (res = .ok () → reply.exit = .ok 0) := by
  cases h with
  | executed reported hv marked =>
    exact ⟨_, reported.block _ marked, fun _ => Runner.verdict_eq_ok_iff.1 hv⟩
  | lapsed reported hv marked => exact ⟨_, reported.block _ marked, fun he => by cases he⟩

/-- What passes for commands that are executed. -/
theorem Deed.ConcludesAll.blocks {t : String} {as : List PlannedAction} {xs : List Exchange}
    {res : Except RunError Unit} (h : Deed.ConcludesAll r (as.map (.execute t)) xs res) :
    CommandBlocks r t as xs res := by
  induction as generalizing xs with
  | nil =>
    cases h with
    | nil => exact .nil
  | cons a as ih =>
    cases h with
    | cons first others =>
      obtain ⟨reply, hblock, hwell⟩ := first.block
      exact .cons hblock (hwell rfl) (ih others)
    | stop first =>
      obtain ⟨reply, hblock, -⟩ := first.block
      exact .cut hblock

/-! ### Blocks of tasks -/

/-- What is told of a command that is skipped. -/
def Happening.ofSkipped (t : String) (a : PlannedAction) : Happening :=
  .commandCached t a.index a.sum a.action.label

/-- What is told of stale markers that are deleted.  Where there are none nothing is told. -/
def Happening.ofSwept (t : String) (stale : List String) : List Happening :=
  if stale = [] then [] else [.cacheInvalidated t stale]

/-- What passes for a task with a plan. -/
inductive TaskBlock (r : Runner) (p : Plan) : List Exchange → Except RunError Unit → Prop
  /-- Its directory could not be made. -/
  | unmade {xs : List Exchange} {e : RunError} (events_eq : events xs = []) :
      TaskBlock r p xs (.error e)
  /-- Its stale markers could not be deleted. -/
  | unswept {xs : List Exchange} {e : RunError} (stale : p.stale ≠ [])
      (events_eq : events xs = p.skipped.map (.ofSkipped p.task)) : TaskBlock r p xs (.error e)
  /-- Its commands were begun, and all of them executed if it ended well. -/
  | swept {xs ys : List Exchange} {res : Except RunError Unit}
      (events_eq : events xs =
        p.skipped.map (.ofSkipped p.task) ++ Happening.ofSwept p.task p.stale)
      (commands : CommandBlocks r p.task p.due ys res) : TaskBlock r p (xs ++ ys) res

/-- Whether a plan is one for a task, and all commands of the task are either skipped or due: those
skipped come first. -/
structure Plan.Divides (p : Plan) (task : Task) : Prop extends p.IsFor task where
  /-- A command is skipped, or it is due. -/
  actions_eq : p.actions = p.skipped ++ p.due
  /-- The commands are numbered in order. -/
  indices : p.actions.map PlannedAction.index = List.range task.actions.length

theorem Plan.divides_ofTask (task : Task) (known : List String) :
    (ofTask task known).Divides task where
  toIsFor := isFor_ofTask task known
  actions_eq := actions_eq task known
  indices := by
    refine List.ext_getElem (by simp) fun i h₁ h₂ => ?_
    rw [List.getElem_map, getElem_actions, List.getElem_range]

/-- What passes for tasks in order, given what the cache holds: each task that is begun has a block,
by a plan that follows from what is known of the task.  If one fails no other is begun. -/
inductive TaskBlocks (r : Runner) :
    List Task → Inventory → List Exchange → Except RunError Unit → Prop
  | nil (inv : Inventory) : TaskBlocks r [] inv [] (.ok ())
  | cons {task : Task} {tasks : List Task} {inv : Inventory} {p : Plan} {xs ys : List Exchange}
      {res : Except RunError Unit} (plan_eq : p = Plan.ofTask task (inv.sums task.name))
      (divides : p.Divides task) (first : TaskBlock r p xs (.ok ()))
      (others : TaskBlocks r tasks (inv.erase task.name) ys res) :
      TaskBlocks r (task :: tasks) inv (xs ++ ys) res
  | cut {task : Task} {tasks : List Task} {inv : Inventory} {p : Plan} {xs : List Exchange}
      {e : RunError} (plan_eq : p = Plan.ofTask task (inv.sums task.name))
      (divides : p.Divides task) (first : TaskBlock r p xs (.error e)) :
      TaskBlocks r (task :: tasks) inv xs (.error e)

theorem Deed.Concludes.events_makeDir {t : String} {xs : List Exchange}
    {res : Except RunError Unit} (h : (Deed.makeDir t).Concludes r xs res) : events xs = [] := by
  cases h
  rfl

theorem Deed.Concludes.events_sweep {t : String} {stale : List String} {xs : List Exchange}
    {res : Except RunError Unit} (h : (Deed.sweep t stale).Concludes r xs res) :
    (res = .ok () ∧ events xs = Happening.ofSwept t stale) ∨
      (res ≠ .ok () ∧ stale ≠ [] ∧ events xs = []) := by
  cases h with
  | clean => exact .inl ⟨rfl, rfl⟩
  | swept hne hb =>
    rw [Happening.ofSwept, if_neg hne]
    exact .inl ⟨rfl, rfl⟩
  | unswept hne hb => exact .inr ⟨by simp, hne, rfl⟩

/-- Nothing can fail while commands are skipped. -/
theorem Deed.ConcludesAll.skipped {t : String} {as : List PlannedAction} {ds : List Deed}
    {xs : List Exchange} {res : Except RunError Unit}
    (h : Deed.ConcludesAll r (as.map (.skip t) ++ ds) xs res) :
    ∃ ys, xs = as.map (fun a => .told (.ofSkipped t a)) ++ ys ∧ Deed.ConcludesAll r ds ys res := by
  induction as generalizing xs with
  | nil => exact ⟨xs, rfl, h⟩
  | cons a as ih =>
    cases h with
    | cons first others =>
      cases first
      obtain ⟨ys, rfl, hds⟩ := ih others
      exact ⟨ys, rfl, hds⟩
    | stop first => nomatch first

/-- What passes for the deeds of a task is a block of it. -/
theorem Deed.ConcludesAll.block {task : Task} {known : List String} {xs : List Exchange}
    {res : Except RunError Unit} (h : Deed.ConcludesAll r (task.deeds known) xs res) :
    TaskBlock r (Plan.ofTask task known) xs res := by
  generalize hp : Plan.ofTask task known = p
  rw [Task.deeds, hp] at h
  -- the deeds are to make the directory, to skip, to sweep and to execute, in that order
  cases h with
  | stop made => exact .unmade made.events_makeDir
  | @cons _ _ xs ys _ made others =>
    obtain ⟨zs, rfl, hrest⟩ := others.skipped
    -- what is told before the sweep is that commands are skipped
    have hbefore : events (xs ++ p.skipped.map fun a => .told (.ofSkipped p.task a)) =
        p.skipped.map (.ofSkipped p.task) := by
      simp [made.events_makeDir, events_map_told]
    rw [← List.append_assoc]
    cases hrest with
    | stop sweep =>
      rcases sweep.events_sweep with ⟨he, -⟩ | ⟨-, hne, hsweep⟩
      · cases he
      · exact .unswept hne (by rw [events_append, hbefore, hsweep, List.append_nil])
    | @cons _ _ sweeping due _ sweep executed =>
      rcases sweep.events_sweep with ⟨-, hsweep⟩ | ⟨hne, -⟩
      · rw [← List.append_assoc]
        exact .swept (by rw [events_append, hbefore, hsweep]) executed.blocks
      · exact absurd rfl hne

theorem Task.Concludes.blocks {tasks : List Task} {inv : Inventory} {xs : List Exchange}
    {res : Except RunError Unit} {counts : Counts} (h : Task.Concludes r tasks inv xs res counts) :
    TaskBlocks r tasks inv xs res := by
  induction h with
  | nil inv => exact .nil inv
  | cons first _ ih => exact .cons rfl (Plan.divides_ofTask _ _) first.block ih
  | stop first => exact .cut rfl (Plan.divides_ofTask _ _) first.block

/-! ### Runs -/

namespace Runner

/-- While a host is prepared nothing is told. -/
theorem Prepares.events_eq {xs : List Exchange} {res : Except RunError Unit}
    (h : r.Prepares xs res) : events xs = [] := by
  cases h <;> rfl

variable {σ : Type} {W : σ → Exchange → σ → Prop} {w w' : σ} {ms : List (Moment σ)}
  {tasks : List Task}

/-- What a run has told when it is over, whatever came of all that it asked for.  First comes the
start of the run and last its end; before the cache is listed nothing else is told, and from then on
what passes consists of blocks, one for each task in order up to the first that failed. -/
theorem told_in_blocks {result : Except RunError Counts}
    (h : (r.provision tasks).Goes W w ms (.done result) w') :
    ∃ opening work res counts, result = res.map (fun _ => counts) ∧ events opening = [] ∧
      exchanges ms = .told (.hostStarted tasks.length false) ::
        (opening ++ work ++ [.told (.hostFinished counts.executed counts.cached counts.invalidated
          (failure? res))]) ∧
      ((work = [] ∧ ∃ e, res = .error e) ∨
        ∃ before reply inv, opening = before ++ [.asked r.listingCall reply] ∧
          inventoried r.settings.cacheRoot reply = .ok inv ∧
          TaskBlocks r tasks inv work res) := by
  obtain ⟨_, res, counts, hrun, hresult, hms⟩ := yields_provision.1 h.yields
  have hms : exchanges ms = _ := hms
  rw [closing] at hms
  cases hrun with
  | unprepared hprepares =>
    exact ⟨_, [], _, _, hresult, hprepares.events_eq, by simpa using hms, .inl ⟨rfl, _, rfl⟩⟩
  | @unlisted xs reply e hprepares listing =>
    exact ⟨xs ++ [.asked r.listingCall reply], [], _, _, hresult, by simp [hprepares.events_eq],
      by simpa using hms, .inl ⟨rfl, _, rfl⟩⟩
  | @worked xs ys reply inv _ _ hprepares listing work =>
    exact ⟨xs ++ [.asked r.listingCall reply], ys, _, _, hresult, by simp [hprepares.events_eq],
      by simpa using hms, .inr ⟨xs, reply, inv, rfl, listing, work.blocks⟩⟩

/-- Of a run whose only task fails halfway: its block is cut short. -/
theorem halfway_told_in_blocks : ∃ (ms : List (Moment Unit)) (e : RunError)
    (opening work : List Exchange) (inv : Inventory),
    (byDefault.provision [.halfway]).Goes (fun _ _ _ => True) () ms (.done (.error e)) () ∧
      exchanges ms = .told (.hostStarted 1 false) ::
        (opening ++ work ++ [.told (.hostFinished 0 0 0 (some e.message))]) ∧
      work ≠ [] ∧ TaskBlocks byDefault [.halfway] inv work (.error e) := by
  obtain ⟨xs, e, hyields, hlast, hobserved⟩ := exists_halfway
  have hgoes : (byDefault.provision [.halfway]).Goes (fun _ _ _ => True) () _ _ () :=
    hyields.goes fun _ _ => trivial
  obtain ⟨opening, work, res, counts, hres, hopening, hms, hwork⟩ := told_in_blocks hgoes
  have hms' := hms
  rw [exchanges_map] at hms'
  rw [hms', ← List.cons_append, List.getLast?_concat, Option.some.injEq, Exchange.told.injEq]
    at hlast
  rw [hlast] at hms
  -- something was executed, and nothing before the first task counts
  have hne : work ≠ [] := by
    rintro rfl
    have hcounts : ∀ x ∈ Exchange.told (.hostStarted 1 false) :: opening,
        ∀ zs, x.counts zs = .zero := by
      rw [List.forall_mem_cons]
      refine ⟨fun _ => rfl, fun x hx => ?_⟩
      have := List.filterMap_eq_nil_iff.1 hopening x hx
      cases x <;> simp_all [Exchange.counts]
    rw [hms', List.append_nil, ← List.cons_append] at hobserved
    have := (Counts.observed_append hcounts _).symm.trans hobserved
    cases this
  obtain rfl : res = .error e := by
    cases res with
    | ok u => cases hres
    | error e' => rw [Except.error.inj hres]
  rcases hwork with ⟨rfl, -⟩ | ⟨before, reply, inv, -, -, hblocks⟩
  · exact absurd rfl hne
  · exact ⟨_, e, opening, work, inv, hgoes, hms, hne, hblocks⟩

end Runner

end Provisioning
