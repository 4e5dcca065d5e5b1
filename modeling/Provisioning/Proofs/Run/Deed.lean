import Mathlib.Data.List.Basic
import Provisioning.Proofs.Cache.Plan
import Provisioning.Proofs.Host.Course
import Provisioning.Run.Provision

/-!
# The deeds of a run

What a run does for its tasks is one list of deeds, known as soon as the cache is listed: for every
task its directory is made, commands are skipped, stale markers are swept away, and the commands
that are left are executed.  A run performs its deeds in order, up to the first failure.

* `Runner.runActions_eq`, `Runner.runTask_eq`, `Runner.outcome_runTasks` : the programs that run
  planned commands, a task and all tasks perform exactly these deeds;
* `Task.itinerary_eq`, `Task.tally_eq` : where tasks have names of their own, each finds the
  checksums that the inventory knew of it in the beginning.
-/

namespace Provisioning

/-- One thing that a run does for a task. -/
inductive Deed where
  /-- The directory of a task is made. -/
  | makeDir (task : String)
  /-- A command is skipped. -/
  | skip (task : String) (a : PlannedAction)
  /-- Stale markers are deleted, if there are any. -/
  | sweep (task : String) (stale : List String)
  /-- A command is executed, and marked as successful if it was. -/
  | execute (task : String) (a : PlannedAction)
deriving DecidableEq, Repr

/-- The task concerned. -/
def Deed.task : Deed → String
  | makeDir t | skip t _ | sweep t _ | execute t _ => t

/-! ### Deeds of tasks -/

/-- What is done for a task of which some checksums are known. -/
def Task.deeds (task : Task) (known : List String) : List Deed :=
  let p := Plan.ofTask task known
  .makeDir p.task :: (p.skipped.map (.skip p.task) ++ .sweep p.task p.stale ::
    p.due.map (.execute p.task))

/-- What is done for tasks, given what the cache holds. -/
def Task.itinerary : List Task → Inventory → List Deed
  | [], _ => []
  | task :: tasks, inv => task.deeds (inv.sums task.name) ++ itinerary tasks (inv.erase task.name)

/-- What a task counts for if all goes well. -/
def Plan.counts (p : Plan) : Counts := ⟨p.due.length, p.skipped.length, p.stale.length⟩

/-- What tasks count for if all goes well. -/
def Task.tally : List Task → Inventory → Counts → Counts
  | [], _, counts => counts
  | task :: tasks, inv, counts =>
    tally tasks (inv.erase task.name) (counts + (Plan.ofTask task (inv.sums task.name)).counts)

theorem Inventory.sums_erase {inv : Inventory} {t t' : String} (h : t' ≠ t) :
    (inv.erase t).sums t' = inv.sums t' := by
  rw [sums, sums, erase, List.filter_filter]
  congr 1
  refine List.filter_congr fun m _ => ?_
  by_cases hm : m.task = t'
  · simp [hm, h]
  · simp [hm]

/-- What is used up by a task is of no concern to tasks of other names. -/
theorem Task.sums_erase {task : Task} {tasks : List Task}
    (h : ((task :: tasks).map Task.name).Nodup) (inv : Inventory) :
    ∀ t ∈ tasks, (inv.erase task.name).sums t.name = inv.sums t.name := by
  intro t ht
  rw [List.map_cons, List.nodup_cons] at h
  have hne : t.name ≠ task.name := by
    intro he
    exact h.1 (he ▸ List.mem_map_of_mem ht)
  exact Inventory.sums_erase hne

/-- Where tasks have names of their own, each finds what the inventory knew of it in the
beginning. -/
theorem Task.itinerary_eq {tasks : List Task} (h : (tasks.map Task.name).Nodup) (inv : Inventory) :
    itinerary tasks inv = tasks.flatMap fun t => t.deeds (inv.sums t.name) := by
  induction tasks generalizing inv with
  | nil => rfl
  | cons t ts ih =>
    rw [itinerary, ih h.of_cons, List.flatMap_cons]
    congr 1
    rw [List.flatMap_def, List.flatMap_def]
    congr 1
    refine List.map_congr_left fun t' ht' => ?_
    rw [sums_erase h inv t' ht']

/-- What tasks with names of their own count for. -/
theorem Task.tally_eq {tasks : List Task} (h : (tasks.map Task.name).Nodup) (inv : Inventory)
    (counts : Counts) : tally tasks inv counts =
      tasks.foldl (fun c t => c + (Plan.ofTask t (inv.sums t.name)).counts) counts := by
  induction tasks generalizing inv counts with
  | nil => rfl
  | cons t ts ih =>
    rw [tally, ih h.of_cons, List.foldl_cons]
    refine List.foldl_ext _ _ _ fun c t' ht' => ?_
    rw [sums_erase h inv t' ht']

namespace Runner

variable (r : Runner)

/-! ### Performing deeds -/

/-- The directory of a task. -/
abbrev dirOf (task : String) : String := Cache.taskDir r.settings.cacheRoot task

/-- Does one thing. -/
def perform : Deed → Attempt Unit
  | .makeDir t => makeDir t (r.dirOf t)
  | .skip t a => (tell (.commandCached t a.index a.sum a.action.label) : Script Unit)
  | .sweep t stale => do
    let _ ← invalidate t (r.dirOf t) stale
  | .execute t a => r.execute t (r.dirOf t) a

theorem perform_execute (t : String) (a : PlannedAction) :
    r.perform (.execute t a) = r.execute t (r.dirOf t) a := rfl

/-- Does things in order, up to the first failure. -/
def performAll : List Deed → Attempt Unit
  | [] => pure ()
  | d :: ds => do
    r.perform d
    performAll ds

theorem performAll_append (a b : List Deed) :
    r.performAll (a ++ b) = r.performAll a >>= fun _ => r.performAll b := by
  induction a with
  | nil => simp [performAll]
  | cons d ds ih => simp [performAll, ih]

theorem invalidate_eq (t : String) (stale : List String) :
    invalidate t (r.dirOf t) stale =
      r.perform (.sweep t stale) >>= fun _ => pure stale.length := by
  rw [perform, invalidate]
  cases stale with
  | nil => simp
  | cons s ss => simp

variable (p : Plan)

theorem runActions_due (counts : Counts) {due : List PlannedAction}
    (h : ∀ a ∈ due, a.decision = .execute) :
    r.runActions p (r.dirOf p.task) true counts due =
      r.performAll (due.map (.execute p.task)) >>= fun _ =>
        pure { counts with executed := counts.executed + due.length } := by
  induction due generalizing counts with
  | nil => simp [runActions, performAll]
  | cons a as ih =>
    rw [List.forall_mem_cons] at h
    rw [runActions, h.1]
    simp [ih _ h.2, performAll, perform_execute, Nat.add_assoc, Nat.add_comm 1]

/-- Planned commands run as deeds: skips first, then a sweep, then executions. -/
theorem runActions_eq (counts : Counts) {skipped due : List PlannedAction}
    (hs : ∀ a ∈ skipped, a.decision = .cached) (hd : ∀ a ∈ due, a.decision = .execute) :
    r.runActions p (r.dirOf p.task) false counts (skipped ++ due) =
      r.performAll (skipped.map (.skip p.task) ++ .sweep p.task p.stale ::
        due.map (.execute p.task)) >>= fun _ =>
        pure ⟨counts.executed + due.length, counts.cached + skipped.length, p.stale.length⟩ := by
  induction skipped generalizing counts with
  | nil =>
    cases due with
    | nil => simp [runActions, invalidate_eq, performAll]
    | cons a as =>
      rw [List.forall_mem_cons] at hd
      rw [List.nil_append, runActions, hd.1]
      simp [invalidate_eq, runActions_due r p _ hd.2, performAll, perform_execute, Nat.add_assoc,
        Nat.add_comm 1]
  | cons a as ih =>
    rw [List.forall_mem_cons] at hs
    rw [List.cons_append, runActions, hs.1]
    simp [ih _ hs.2, performAll, perform, Nat.add_assoc, Nat.add_comm 1]

theorem decision_of_mem_skipped {a : PlannedAction} (h : a ∈ p.skipped) :
    a.decision = .cached := by
  simpa using (List.mem_filter.1 h).2

theorem decision_of_mem_due {a : PlannedAction} (h : a ∈ p.due) : a.decision = .execute := by
  simpa using (List.mem_filter.1 h).2

/-- A task runs as deeds.  What the inventory tells of it is used up as soon as its directory is
made. -/
theorem runTask_eq (t : Task) (inv : Inventory) :
    r.runTask t inv =
      (r.perform (.makeDir t.name)).run >>= fun
        | .error e => pure (.error e, inv)
        | .ok () => (fun res => (res, inv.erase t.name)) <$>
            (r.performAll (t.deeds (inv.sums t.name)).tail >>= fun _ =>
              pure (Plan.ofTask t (inv.sums t.name)).counts).run := by
  have hactions := r.runActions_eq (Plan.ofTask t (inv.sums t.name)) .zero
    (fun _ => decision_of_mem_skipped (Plan.ofTask t (inv.sums t.name)))
    (fun _ => decision_of_mem_due (Plan.ofTask t (inv.sums t.name)))
  rw [← Plan.actions_eq] at hactions
  have hdir : (Plan.ofTask t (inv.sums t.name)).task = t.name := rfl
  rw [hdir] at hactions
  rw [runTask, Task.deeds, List.tail_cons]
  simp only [Inventory.take, hactions, perform]
  congr 1
  funext res
  cases res with
  | error e => rfl
  | ok _ => simp [Plan.counts, Counts.zero, hdir]

/-- The first of some tasks runs as deeds; the others run if all of them are done. -/
theorem runTasks_cons (t : Task) (ts : List Task) (inv : Inventory) (counts : Counts) :
    r.runTasks (t :: ts) inv counts =
      (r.performAll (t.deeds (inv.sums t.name))).run >>= fun
        | .error e => pure (.error e, counts)
        | .ok () => r.runTasks ts (inv.erase t.name)
            (counts + (Plan.ofTask t (inv.sums t.name)).counts) := by
  rw [runTasks, runTask_eq, Task.deeds, List.tail_cons, performAll]
  simp only [ExceptT.run_bind, bind_assoc, map_bind]
  have hdir : (Plan.ofTask t (inv.sums t.name)).task = t.name := rfl
  rw [hdir]
  congr 1
  funext res
  cases res with
  | error e => rfl
  | ok _ =>
    simp only [bind_assoc]
    congr 1
    funext res
    cases res with
    | error e => rfl
    | ok _ => rfl

/-- The result of tasks with what they count for, if all went well. -/
def outcome (result : Except RunError Unit × Counts) : Except RunError Counts :=
  result.1.map fun _ => result.2

/-- Tasks run as deeds. -/
theorem outcome_runTasks (tasks : List Task) (inv : Inventory) (counts : Counts) :
    outcome <$> r.runTasks tasks inv counts =
      (r.performAll (Task.itinerary tasks inv) >>= fun _ =>
        pure (Task.tally tasks inv counts)).run := by
  induction tasks generalizing inv counts with
  | nil => rfl
  | cons t ts ih =>
    rw [runTasks_cons, Task.itinerary, Task.tally, performAll_append, map_bind, bind_assoc,
      ExceptT.run_bind]
    congr 1
    funext res
    cases res with
    | error e => rfl
    | ok _ => exact ih _ _

end Runner

end Provisioning
