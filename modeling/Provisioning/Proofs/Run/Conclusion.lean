import Provisioning.Proofs.Run.Phases

/-!
# How a run comes to its end

The course of a script may stop anywhere.  One that leads to the end of a run has passed all deeds,
or those up to the first that failed; and what passes for a deed that is done, or has failed,
follows from the deed and the replies.  Nothing is assumed of the world, and nothing is left out:
whatever is said here to pass can pass.

* `Deed.Concludes`, `Deed.ConcludesAll` : what passes for a deed, and for deeds in order;
* `Task.Concludes`, `Runner.Concludes` : what passes for tasks, and in a run;
* `yields_perform`, `yields_provision` : this is all that can pass.
-/

namespace Provisioning

variable {r : Runner} {xs : List Exchange}

/-- What is told, in order. -/
def events (xs : List Exchange) : List Happening :=
  xs.filterMap fun
    | .told what => some what
    | _ => none

@[simp] theorem events_nil : events [] = [] := rfl

@[simp] theorem events_told (what : Happening) (xs : List Exchange) :
    events (.told what :: xs) = what :: events xs := rfl

@[simp] theorem events_asked (call : Call) (reply : Reply) (xs : List Exchange) :
    events (.asked call reply :: xs) = events xs := rfl

@[simp] theorem events_closed (result : Except TransportError Unit) (xs : List Exchange) :
    events (.closed result :: xs) = events xs := rfl

@[simp] theorem events_logged (job : LogJob) (result : Except LogError Unit)
    (xs : List Exchange) : events (.logged job result :: xs) = events xs := rfl

@[simp] theorem events_append (xs ys : List Exchange) :
    events (xs ++ ys) = events xs ++ events ys := List.filterMap_append

theorem events_map_told {α : Type} (f : α → Happening) (as : List α) :
    events (as.map fun a => .told (f a)) = as.map f := by
  induction as with
  | nil => rfl
  | cons a as ih => rw [List.map_cons, events_told, ih, List.map_cons]

/-! ### Deeds -/

namespace Deed

/-- What passes for a deed that comes to its end, and its result. -/
inductive Concludes (r : Runner) : Deed → List Exchange → Except RunError Unit → Prop
  | makeDir (t : String) (reply : Reply) :
      Concludes r (.makeDir t) [.asked ⟨Runner.makeDirScript (r.dirOf t), []⟩ reply]
        (bookkept t "create cache directory" reply)
  | skip (t : String) (a : PlannedAction) :
      Concludes r (.skip t a) [.told (.commandCached t a.index a.sum a.action.label)] (.ok ())
  /-- Where nothing is stale nothing passes. -/
  | clean (t : String) : Concludes r (.sweep t []) [] (.ok ())
  /-- The deletion is told of if it was accepted. -/
  | swept {t : String} {stale : List String} {reply : Reply} (hne : stale ≠ [])
      (h : bookkept t "delete stale markers" reply = .ok ()) :
      Concludes r (.sweep t stale) [.asked ⟨Runner.deleteScript (r.dirOf t) stale, []⟩ reply,
        .told (.cacheInvalidated t stale)] (.ok ())
  | unswept {t : String} {stale : List String} {reply : Reply} {e : RunError} (hne : stale ≠ [])
      (h : bookkept t "delete stale markers" reply = .error e) :
      Concludes r (.sweep t stale) [.asked ⟨Runner.deleteScript (r.dirOf t) stale, []⟩ reply]
        (.error e)
  /-- A command that ended well is marked as such, which may fail. -/
  | executed {t : String} {a : PlannedAction} {reply : Reply} {xs : List Exchange}
      (reported : Reported t (r.dirOf t) a.sum reply xs)
      (h : Runner.verdict t a reply.exit = .ok ()) (marked : Reply) :
      Concludes r (.execute t a) (.told (.commandStarted t a.index a.sum a.action.label) ::
        .asked ⟨r.wrap a.action.script, []⟩ reply :: (xs ++
          [.told (Runner.finished t a ⟨reply.exit, reply.millis⟩),
            .asked ⟨Runner.doneScript (r.dirOf t) a.sum a.action.script, []⟩ marked]))
        (bookkept t "write success marker" marked)
  /-- A command that failed is marked as such, and it makes no difference whether that fails. -/
  | lapsed {t : String} {a : PlannedAction} {reply : Reply} {xs : List Exchange} {e : RunError}
      (reported : Reported t (r.dirOf t) a.sum reply xs)
      (h : Runner.verdict t a reply.exit = .error e) (marked : Reply) :
      Concludes r (.execute t a) (.told (.commandStarted t a.index a.sum a.action.label) ::
        .asked ⟨r.wrap a.action.script, []⟩ reply :: (xs ++
          [.told (Runner.finished t a ⟨reply.exit, reply.millis⟩),
            .asked ⟨Runner.failedScript (r.dirOf t) a.sum a.action.script, []⟩ marked]))
        (.error e)

/-- The same of deeds in order, up to the first that fails. -/
inductive ConcludesAll (r : Runner) : List Deed → List Exchange → Except RunError Unit → Prop
  | nil : ConcludesAll r [] [] (.ok ())
  | cons {d : Deed} {ds : List Deed} {xs ys : List Exchange} {res : Except RunError Unit}
      (first : d.Concludes r xs (.ok ())) (others : ConcludesAll r ds ys res) :
      ConcludesAll r (d :: ds) (xs ++ ys) res
  | stop {d : Deed} {ds : List Deed} {xs : List Exchange} {e : RunError}
      (first : d.Concludes r xs (.error e)) : ConcludesAll r (d :: ds) xs (.error e)

end Deed

theorem yields_bookkeep {task action script : String} {res : Except RunError Unit} :
    (Runner.bookkeep task action script).run.Yields xs res ↔
      ∃ reply, xs = [.asked ⟨script, []⟩ reply] ∧ res = bookkept task action reply := by
  simp [run_bookkeep]

theorem yields_sweep {t : String} {stale : List String} {res : Except RunError Unit} :
    (r.perform (.sweep t stale)).run.Yields xs res ↔ (Deed.sweep t stale).Concludes r xs res := by
  cases stale with
  | nil =>
    show (Script.done (.ok ())).Yields xs res ↔ _
    rw [Script.yields_done]
    constructor
    · rintro ⟨rfl, rfl⟩
      exact .clean t
    · intro h
      cases h with
      | clean => exact ⟨rfl, rfl⟩
      | swept hne => exact absurd rfl hne
      | unswept hne => exact absurd rfl hne
  | cons s ss =>
    rw [Runner.run_sweep, Script.yields_ask]
    constructor
    · rintro ⟨reply, ys, rfl, h⟩
      cases hb : bookkept t "delete stale markers" reply with
      | error e =>
        simp only [hb, Script.yields_done] at h
        obtain ⟨rfl, rfl⟩ := h
        exact .unswept (by simp) hb
      | ok u =>
        simp only [hb, Script.yields_tell, Script.yields_done] at h
        obtain ⟨_, rfl, rfl, rfl⟩ := h
        exact .swept (by simp) hb
    · intro h
      cases h with
      | swept _ hb => exact ⟨_, _, rfl, by simp [hb]⟩
      | unswept _ hb => exact ⟨_, _, rfl, by simp [hb]⟩

theorem yields_execute {t : String} {a : PlannedAction} {res : Except RunError Unit} :
    (r.perform (.execute t a)).run.Yields xs res ↔ (Deed.execute t a).Concludes r xs res := by
  rw [Runner.perform_execute, Runner.run_execute]
  constructor
  · intro h
    obtain ⟨_, rfl, htold⟩ := Script.yields_tell.1 h
    obtain ⟨reply, _, rfl, hasked⟩ := Script.yields_ask.1 htold
    obtain ⟨ending, ys, zs, rfl, h₁, h₂⟩ := Script.yields_bind.1 hasked
    obtain ⟨reported, rfl⟩ := yields_account.1 h₁
    rw [Runner.run_settle, Script.yields_tell] at h₂
    obtain ⟨_, rfl, h₂⟩ := h₂
    -- the exit of the command alone decides on the marker, and on the result if it failed
    cases hv : Runner.verdict t a reply.exit with
    | ok u =>
      simp only [hv, Script.yields_ask, Script.yields_done] at h₂
      obtain ⟨marked, _, rfl, rfl, rfl⟩ := h₂
      exact .executed reported hv marked
    | error e =>
      simp only [hv, Script.yields_ask, Script.yields_done] at h₂
      obtain ⟨marked, _, rfl, rfl, rfl⟩ := h₂
      exact .lapsed reported hv marked
  · intro h
    cases h with
    | executed reported hv marked =>
      refine Script.yields_tell.2 ⟨_, rfl, Script.yields_ask.2 ⟨_, _, rfl, ?_⟩⟩
      refine Script.yields_bind.2 ⟨_, _, _, rfl, yields_account.2 ⟨reported, rfl⟩, ?_⟩
      simp [Runner.run_settle, hv]
    | lapsed reported hv marked =>
      refine Script.yields_tell.2 ⟨_, rfl, Script.yields_ask.2 ⟨_, _, rfl, ?_⟩⟩
      refine Script.yields_bind.2 ⟨_, _, _, rfl, yields_account.2 ⟨reported, rfl⟩, ?_⟩
      simp [Runner.run_settle, hv]

/-- All that can pass for a deed. -/
theorem yields_perform {d : Deed} {res : Except RunError Unit} :
    (r.perform d).run.Yields xs res ↔ d.Concludes r xs res := by
  cases d with
  | makeDir t =>
    refine yields_bookkeep.trans ⟨?_, fun h => ?_⟩
    · rintro ⟨reply, rfl, rfl⟩
      exact .makeDir t reply
    · cases h with
      | makeDir t reply => exact ⟨reply, rfl, rfl⟩
  | skip t a =>
    have hrun : (r.perform (.skip t a)).run =
        .tell (.commandCached t a.index a.sum a.action.label) (.done (.ok ())) := rfl
    rw [hrun]
    constructor
    · intro h
      simp only [Script.yields_tell, Script.yields_done] at h
      obtain ⟨_, rfl, rfl, rfl⟩ := h
      exact .skip t a
    · intro h
      cases h with
      | skip => simp
  | sweep t stale => exact yields_sweep
  | execute t a => exact yields_execute

/-- All that can pass for deeds in order. -/
theorem yields_performAll {ds : List Deed} {res : Except RunError Unit} :
    (r.performAll ds).run.Yields xs res ↔ Deed.ConcludesAll r ds xs res := by
  induction ds generalizing xs with
  | nil =>
    show (Script.done (.ok ())).Yields xs res ↔ _
    rw [Script.yields_done]
    constructor
    · rintro ⟨rfl, rfl⟩
      exact .nil
    · intro h
      cases h with
      | nil => exact ⟨rfl, rfl⟩
  | cons d ds ih =>
    rw [Runner.performAll, ExceptT.run_bind, Script.yields_bind]
    constructor
    · rintro ⟨first, ys, zs, rfl, h₁, h₂⟩
      cases first with
      | error e =>
        -- the first deed failed, and no other is begun
        obtain ⟨rfl, rfl⟩ := Script.yields_done.1 h₂
        rw [List.append_nil]
        exact .stop (yields_perform.1 h₁)
      | ok u => exact .cons (yields_perform.1 h₁) (ih.1 h₂)
    · intro h
      cases h with
      | cons first others =>
        exact ⟨.ok (), _, _, rfl, yields_perform.2 first, ih.2 others⟩
      | @stop _ _ _ e first =>
        exact ⟨.error e, _, [], (List.append_nil _).symm, yields_perform.2 first, .done _⟩

/-! ### Tasks -/

/-- What passes for tasks that come to their end, with the result and what the tasks count for that
were done. -/
inductive Task.Concludes (r : Runner) : List Task → Inventory → List Exchange →
    Except RunError Unit → Counts → Prop
  | nil (inv : Inventory) : Concludes r [] inv [] (.ok ()) .zero
  | cons {task : Task} {tasks : List Task} {inv : Inventory} {xs ys : List Exchange}
      {res : Except RunError Unit} {counts : Counts}
      (first : Deed.ConcludesAll r (task.deeds (inv.sums task.name)) xs (.ok ()))
      (others : Concludes r tasks (inv.erase task.name) ys res counts) :
      Concludes r (task :: tasks) inv (xs ++ ys) res
        ((Plan.ofTask task (inv.sums task.name)).counts + counts)
  | stop {task : Task} {tasks : List Task} {inv : Inventory} {xs : List Exchange} {e : RunError}
      (first : Deed.ConcludesAll r (task.deeds (inv.sums task.name)) xs (.error e)) :
      Concludes r (task :: tasks) inv xs (.error e) .zero

/-- All that can pass for tasks. -/
theorem yields_runTasks {tasks : List Task} {inv : Inventory} {counts : Counts}
    {res : Except RunError Unit × Counts} : (r.runTasks tasks inv counts).Yields xs res ↔
      ∃ done, Task.Concludes r tasks inv xs res.1 done ∧ res.2 = counts + done := by
  obtain ⟨ended, total⟩ := res
  induction tasks generalizing inv counts xs with
  | nil =>
    show (Script.done ((.ok (), counts) : Except RunError Unit × Counts)).Yields xs _ ↔ _
    rw [Script.yields_done]
    constructor
    · rintro ⟨rfl, he⟩
      obtain ⟨rfl, rfl⟩ := Prod.mk.inj he
      exact ⟨.zero, .nil inv, rfl⟩
    · rintro ⟨done, h, rfl⟩
      cases h with
      | nil => exact ⟨rfl, rfl⟩
  | cons task tasks ih =>
    rw [Runner.runTasks_cons, Script.yields_bind]
    constructor
    · rintro ⟨first, ys, zs, rfl, h₁, h₂⟩
      cases first with
      | error e =>
        -- the counts are handed back as they were before the task
        obtain ⟨rfl, he⟩ := Script.yields_done.1 h₂
        obtain ⟨rfl, rfl⟩ := Prod.mk.inj he
        rw [List.append_nil]
        exact ⟨.zero, .stop (yields_performAll.1 h₁), rfl⟩
      | ok u =>
        obtain ⟨done, hothers, rfl⟩ := ih.1 h₂
        exact ⟨_, .cons (yields_performAll.1 h₁) hothers, Counts.add_assoc _ _ _⟩
    · rintro ⟨done, h, rfl⟩
      cases h with
      | cons first others =>
        exact ⟨.ok (), _, _, rfl, yields_performAll.2 first,
          ih.2 ⟨_, others, (Counts.add_assoc _ _ _).symm⟩⟩
      | @stop _ _ _ _ e first =>
        exact ⟨.error e, _, [], (List.append_nil _).symm, yields_performAll.2 first, .done _⟩

/-! ### Before the first deed -/

/-- What a script that prepares a host delivers, if it ends well. -/
def readied (reply : Reply) : Except RunError Output :=
  match reply.output with
  | .error e => .error (.transport e)
  | .ok out =>
    if out.succeeded then .ok out else .error (.preparation out.exitCode out.complaint)

theorem readied_saying (text : String) : readied (.saying text) = .ok ⟨0, text, ""⟩ := by
  rw [readied, Reply.output_saying]
  rfl

namespace Runner

/-- The call that asks for the groups of who logs in. -/
abbrev groupsCall : Call := ⟨"id -nG", []⟩

/-- The call that makes the group, the root of the cache and the membership. -/
abbrev setupCall (r : Runner) : Call :=
  ⟨strictShell (r.settings.elevation.applies r.user) (setupScript r.settings r.user), []⟩

/-- The call that lists the cache. -/
abbrev listingCall (r : Runner) : Call := ⟨Cache.listingScript r.settings.cacheRoot, []⟩

/-- What passes while a host is prepared, and the result. -/
inductive Prepares (r : Runner) : List Exchange → Except RunError Unit → Prop
  | unmanaged (h : r.settings.manageGroup = false) : Prepares r [] (.ok ())
  | ungrouped {reply : Reply} {e : RunError} (managed : r.settings.manageGroup)
      (h : readied reply = .error e) : Prepares r [.asked groupsCall reply] (.error e)
  | member {reply : Reply} {ids : Output} (managed : r.settings.manageGroup)
      (h : readied reply = .ok ids) (hm : hasGroup ids.stdout r.settings.cacheGroup) :
      Prepares r [.asked groupsCall reply] (.ok ())
  | unprepared {reply reply' : Reply} {ids : Output} {e : RunError}
      (managed : r.settings.manageGroup) (h : readied reply = .ok ids)
      (hm : hasGroup ids.stdout r.settings.cacheGroup = false) (h' : readied reply' = .error e) :
      Prepares r [.asked groupsCall reply, .asked r.setupCall reply'] (.error e)
  /-- A new membership shows only after a fresh login. -/
  | reset {reply reply' : Reply} {ids out : Output} (managed : r.settings.manageGroup)
      (h : readied reply = .ok ids) (hm : hasGroup ids.stdout r.settings.cacheGroup = false)
      (h' : readied reply' = .ok out) (result : Except TransportError Unit) :
      Prepares r [.asked groupsCall reply, .asked r.setupCall reply', .closed result]
        (result.mapError .transport)

end Runner

/-- A script that something else depends on only if it ends well. -/
theorem capture_readied {α : Type} (shell : String) (next : Output → Talk (Except RunError α)) :
    (capture shell >>= fun
      | .error e => pure (.error (.transport e))
      | .ok out =>
        if !out.succeeded then pure (.error (.preparation out.exitCode out.complaint))
        else next out) =
      .ask ⟨shell, []⟩ fun reply => match readied reply with
        | .error e => .done (.error e)
        | .ok out => next out := by
  show Talk.ask _ _ = Talk.ask _ _
  congr 1
  funext reply
  change Talk.bind (.done reply.output) _ = _
  rw [readied]
  cases reply.output with
  | error e => rfl
  | ok out =>
    dsimp only [Talk.bind]
    cases out.succeeded <;> rfl

theorem prepare_eq (settings : Settings) (user : String) :
    prepare settings user = .ask Runner.groupsCall fun reply => match readied reply with
      | .error e => .done (.error e)
      | .ok ids =>
        if hasGroup ids.stdout settings.cacheGroup then .done (.ok false)
        else .ask ⟨strictShell (settings.elevation.applies user) (setupScript settings user), []⟩
          fun reply' => match readied reply' with
            | .error e => .done (.error e)
            | .ok _ => .reset fun
              | .error e => .done (.error (.transport e))
              | .ok () => .done (.ok true) := by
  refine (capture_readied _ _).trans ?_
  congr 1
  funext reply
  cases readied reply with
  | error e => rfl
  | ok ids =>
    dsimp only
    split
    · rfl
    · exact capture_readied _ _

theorem prepareIfManaged_of_managed (managed : r.settings.manageGroup) :
    r.prepareIfManaged = .ask Runner.groupsCall fun reply => match readied reply with
      | .error e => .done (.error e)
      | .ok ids =>
        if hasGroup ids.stdout r.settings.cacheGroup then .done (.ok ())
        else .ask r.setupCall fun reply' => match readied reply' with
          | .error e => .done (.error e)
          | .ok _ => .reset fun result => .done (result.mapError .transport) := by
  rw [Runner.prepareIfManaged, managed, if_pos rfl, prepare_eq]
  show Script.ask _ _ = Script.ask _ _
  congr 1
  funext reply
  beta_reduce
  cases readied reply with
  | error e => rfl
  | ok ids =>
    dsimp only
    cases hasGroup ids.stdout r.settings.cacheGroup with
    | true => rfl
    | false =>
      show Script.ask _ _ = Script.ask _ _
      congr 1
      funext reply'
      beta_reduce
      cases readied reply' with
      | error e => rfl
      | ok out =>
        show Script.reset _ = Script.reset _
        congr 1
        funext result
        cases result <;> rfl

/-- All that can pass while a host is prepared. -/
theorem yields_prepareIfManaged {res : Except RunError Unit} :
    r.prepareIfManaged.Yields xs res ↔ r.Prepares xs res := by
  cases hm : r.settings.manageGroup with
  | false =>
    have hnone : r.prepareIfManaged = .done (.ok ()) := by
      rw [Runner.prepareIfManaged, hm]
      rfl
    rw [hnone, Script.yields_done]
    constructor
    · rintro ⟨rfl, rfl⟩
      exact .unmanaged hm
    · intro h
      cases h <;> simp_all
  | true =>
    rw [prepareIfManaged_of_managed hm, Script.yields_ask]
    constructor
    · rintro ⟨reply, ys, rfl, hgroups⟩
      cases hr : readied reply with
      | error e =>
        simp only [hr, Script.yields_done] at hgroups
        obtain ⟨rfl, rfl⟩ := hgroups
        exact .ungrouped hm hr
      | ok ids =>
        cases hg : hasGroup ids.stdout r.settings.cacheGroup with
        | true =>
          simp only [hr, hg, if_true, Script.yields_done] at hgroups
          obtain ⟨rfl, rfl⟩ := hgroups
          exact .member hm hr hg
        | false =>
          simp only [hr, hg, Bool.false_eq_true, if_false, Script.yields_ask] at hgroups
          obtain ⟨reply', ys, rfl, hsetup⟩ := hgroups
          cases hr' : readied reply' with
          | error e =>
            simp only [hr', Script.yields_done] at hsetup
            obtain ⟨rfl, rfl⟩ := hsetup
            exact .unprepared hm hr hg hr'
          | ok out =>
            simp only [hr', Script.yields_reset, Script.yields_done] at hsetup
            obtain ⟨result, _, rfl, rfl, rfl⟩ := hsetup
            exact .reset hm hr hg hr' result
    · intro h
      cases h with
      | unmanaged h => simp [h] at hm
      | ungrouped _ hr => exact ⟨_, _, rfl, by simp [hr]⟩
      | member _ hr hg => exact ⟨_, _, rfl, by simp [hr, hg]⟩
      | unprepared _ hr hg hr' => exact ⟨_, _, rfl, by simp [hr, hg, hr']⟩
      | reset _ hr hg hr' result => exact ⟨_, _, rfl, by simp [hr, hg, hr']⟩

/-! ### Runs -/

namespace Runner

/-- What passes in a run that comes to its end, but for what is told of the run as a whole, with the
result and the counts. -/
inductive Concludes (r : Runner) (tasks : List Task) : List Exchange → Except RunError Unit →
    Counts → Prop
  | unprepared {xs : List Exchange} {e : RunError} (h : r.Prepares xs (.error e)) :
      Concludes r tasks xs (.error e) .zero
  | unlisted {xs : List Exchange} {reply : Reply} {e : InventoryError}
      (h : r.Prepares xs (.ok ())) (listing : inventoried r.settings.cacheRoot reply = .error e) :
      Concludes r tasks (xs ++ [.asked r.listingCall reply]) (.error (.inventory e)) .zero
  | worked {xs ys : List Exchange} {reply : Reply} {inv : Inventory} {res : Except RunError Unit}
      {counts : Counts} (h : r.Prepares xs (.ok ()))
      (listing : inventoried r.settings.cacheRoot reply = .ok inv)
      (work : Task.Concludes r tasks inv ys res counts) :
      Concludes r tasks (xs ++ .asked r.listingCall reply :: ys) res counts

/-- What is told of a run when it is over. -/
def closing (res : Except RunError Unit) (counts : Counts) : Happening :=
  .hostFinished counts.executed counts.cached counts.invalidated (failure? res)

end Runner

variable {tasks : List Task}

/-- The listing of the cache, and what comes after. -/
theorem yields_takeInventory {α : Type} {root : String}
    {next : Except InventoryError Inventory → Script α} {a : α} :
    (Script.ofTalk (takeInventory root) >>= next).Yields xs a ↔
      ∃ reply ys, xs = .asked ⟨Cache.listingScript root, []⟩ reply :: ys ∧
        (next (inventoried root reply)).Yields ys a := by
  rw [ofTalk_takeInventory]
  exact Script.yields_ask

/-- All that can pass in a run, but for what is told of the run as a whole. -/
theorem yields_runHost {res : Except RunError Unit × Counts} :
    (r.runHost tasks).Yields xs res ↔ r.Concludes tasks xs res.1 res.2 := by
  obtain ⟨ended, counts⟩ := res
  rw [Runner.runHost, Script.yields_bind]
  constructor
  · rintro ⟨prepared, ys, zs, rfl, h₁, h₂⟩
    have hprepared := yields_prepareIfManaged.1 h₁
    cases prepared with
    | error e =>
      obtain ⟨rfl, he⟩ := Script.yields_done.1 h₂
      obtain ⟨rfl, rfl⟩ := Prod.mk.inj he
      rw [List.append_nil]
      exact .unprepared hprepared
    | ok u =>
      -- what the listing shows decides on the rest
      obtain ⟨reply, zs, rfl, h₃⟩ := yields_takeInventory.1 h₂
      cases hinv : inventoried r.settings.cacheRoot reply with
      | error e =>
        rw [hinv] at h₃
        obtain ⟨rfl, he⟩ := Script.yields_done.1 h₃
        obtain ⟨rfl, rfl⟩ := Prod.mk.inj he
        exact .unlisted hprepared hinv
      | ok inv =>
        rw [hinv] at h₃
        obtain ⟨done, hwork, hcounts⟩ := yields_runTasks.1 h₃
        rw [Counts.zero_add] at hcounts
        exact hcounts ▸ .worked hprepared hinv hwork
  · intro h
    cases h with
    | @unprepared _ e h =>
      exact ⟨.error e, _, [], (List.append_nil _).symm, yields_prepareIfManaged.2 h, .done _⟩
    | unlisted h listing =>
      refine ⟨.ok (), _, _, rfl, yields_prepareIfManaged.2 h, ?_⟩
      refine yields_takeInventory.2 ⟨_, _, rfl, ?_⟩
      rw [listing]
      exact .done _
    | worked h listing work =>
      refine ⟨.ok (), _, _, rfl, yields_prepareIfManaged.2 h, ?_⟩
      refine yields_takeInventory.2 ⟨_, _, rfl, ?_⟩
      rw [listing]
      exact yields_runTasks.2 ⟨_, work, (Counts.zero_add _).symm⟩

/-- All that can pass in a run. -/
theorem yields_provision {result : Except RunError Counts} :
    (r.provision tasks).Yields xs result ↔
      ∃ ys res counts, r.Concludes tasks ys res counts ∧ result = res.map (fun _ => counts) ∧
        xs = .told (.hostStarted tasks.length false) ::
          (ys ++ [.told (Runner.closing res counts)]) := by
  show (Script.tell _ (r.runHost tasks >>= fun ended =>
    .tell (Runner.closing ended.1 ended.2) (.done (ended.1.map fun _ => ended.2)))).Yields xs result
      ↔ _
  rw [Script.yields_tell]
  constructor
  · rintro ⟨_, rfl, h⟩
    obtain ⟨⟨res, counts⟩, ys, _, rfl, h₁, h₂⟩ := Script.yields_bind.1 h
    simp only [Script.yields_tell, Script.yields_done] at h₂
    obtain ⟨_, rfl, rfl, rfl⟩ := h₂
    exact ⟨ys, res, counts, yields_runHost.1 h₁, rfl, rfl⟩
  · rintro ⟨ys, res, counts, h, rfl, rfl⟩
    refine ⟨_, rfl, Script.yields_bind.2 ⟨(res, counts), ys, _, rfl, yields_runHost.2 h, ?_⟩⟩
    simp

end Provisioning
