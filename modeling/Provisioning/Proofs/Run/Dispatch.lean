import Provisioning.Proofs.Run.Submission

/-!
# The commands that a run sends

A run sends the commands of every task in order, from the first without a marker of success
(`Task.firstMissing`) up to where it ends.

* `Task.reach_eq_firstMissing` : the cache reaches to that command;
* `RunCourse.dispatched_prefix` : what a run sends, and that it sends all if it ends well.
-/

namespace Provisioning

/-! ### What is sent -/

/-- The command that an act sends: its task, its index and the call. -/
def Act.dispatch? : Act → Option (String × Nat × Call)
  | skipped _ _ => none
  | sent task index call _ => some (task, index, call)

/-- The commands that were sent, in order. -/
def dispatched (ms : List (Moment Files)) : List (String × Nat × Call) :=
  (acts (exchanges ms)).filterMap Act.dispatch?

/-- The command that a deed sends. -/
def Deed.dispatch? (r : Runner) : Deed → Option (String × Nat × Call)
  | execute t a => some (t, a.index, ⟨r.wrap a.action.script, []⟩)
  | _ => none

/-- The commands of a task from one on, as they are sent. -/
def Task.dispatches (task : Task) (r : Runner) (first : Nat) : List (String × Nat × Call) :=
  (task.scripts.zipIdx.drop first).map fun (script, i) => (task.name, i, ⟨r.wrap script, []⟩)

/-- The first command of a task without a marker; the number of commands if none is. -/
noncomputable def Task.firstMissing (task : Task) (marked : Set String) : Nat :=
  open Classical in task.checksums.findIdx fun s => decide (s ∉ marked)

variable {r : Runner} {part : Failing} {fs fs' : Files} {ms : List (Moment Files)}
  {past ahead : List Deed}

theorem Deed.Shows.dispatch {d : Deed} {as : List Act} (h : d.Shows r as) :
    as.filterMap Act.dispatch? = (d.dispatch? r).toList := by
  cases d with
  | makeDir | sweep =>
    obtain rfl : as = [] := h
    rfl
  | skip t a =>
    obtain rfl : as = [.skipped t a.index] := h
    rfl
  | execute t a =>
    obtain ⟨reply, -, rfl⟩ := h
    rfl

theorem Deed.Begins.dispatch {d : Deed} {act : Act} (h : d.Begins r act) :
    [act].filterMap Act.dispatch? = (d.dispatch? r).toList := by
  cases d with
  | makeDir | sweep => exact h.elim
  | skip t a =>
    obtain rfl : act = .skipped t a.index := h
    rfl
  | execute t a =>
    obtain ⟨reply, rfl⟩ := h
    rfl

theorem Shown.dispatch {ds : List Deed} {as : List Act} (h : Shown r ds as) :
    as.filterMap Act.dispatch? = ds.filterMap (Deed.dispatch? r) := by
  induction ds generalizing as with
  | nil =>
    obtain rfl : as = [] := h
    rfl
  | cons d ds ih =>
    obtain ⟨bs, cs, rfl, hbs, hcs⟩ := h
    rw [List.filterMap_append, hbs.dispatch, ih hcs]
    cases hd : d.dispatch? r <;> simp [hd]

/-- A run under way has sent the commands of the first of its deeds. -/
theorem Underway.dispatched_prefix (h : Underway r part past ahead fs ms fs') :
    dispatched ms <+: (past ++ ahead).filterMap (Deed.dispatch? r) := by
  obtain ⟨did, as, bs, -, hacts, hshown, hhalf⟩ := h.halfway
  rw [dispatched, hacts, List.filterMap_append, hshown.dispatch, List.filterMap_append,
    List.prefix_append_right_inj]
  generalize hhead : ahead.head? = d? at hhalf
  have hnext : ∀ d, ahead.head? = some d → (d.dispatch? r).toList <+:
      ahead.filterMap (Deed.dispatch? r) := by
    intro d hd
    obtain ⟨rest, rfl⟩ := List.head?_eq_some_iff.1 hd
    cases hd : d.dispatch? r <;> simp [hd]
  cases hhalf with
  | idle => exact List.nil_prefix
  | begun hb => exact hb.dispatch ▸ hnext _ hhead
  | partly hs _ => exact hs.dispatch ▸ hnext _ hhead
  | lapsed hb _ => exact hb.dispatch ▸ hnext _ hhead

/-- A run that has done all has sent all. -/
theorem Underway.dispatched_eq (h : Underway r part past [] fs ms fs') :
    dispatched ms = past.filterMap (Deed.dispatch? r) := by
  obtain ⟨did, as, bs, -, hacts, hshown, hhalf⟩ := h.halfway
  cases hhalf
  rw [dispatched, hacts, List.append_nil, hshown.dispatch]

namespace Task

variable {task : Task} {tasks : List Task} {known : List String} {marked : Set String}

theorem map_due (r : Runner) :
    (Plan.ofTask task known).due.map
      (fun a => (task.name, a.index, (⟨r.wrap a.action.script, []⟩ : Call))) =
        task.dispatches r (task.reach known) := by
  have hall : (Plan.ofTask task known).actions.map (fun a => (a.action.script, a.index)) =
      task.scripts.zipIdx :=
    List.ext_getElem (by simp) fun i h₁ h₂ => by simp [Plan.getElem_actions, scripts]
  rw [dispatches, ← hall, Plan.due_eq, ← List.map_drop, List.map_map]
  rfl

/-- The deeds of a task send its commands from where the cache ends. -/
theorem dispatch_deeds (r : Runner) :
    (task.deeds known).filterMap (Deed.dispatch? r) = task.dispatches r (task.reach known) := by
  have hfirst : (task.firstDeeds known).filterMap (Deed.dispatch? r) = [] := by
    rw [List.filterMap_eq_nil_iff]
    intro d hd
    rcases List.mem_cons.1 hd with rfl | hd
    · rfl
    · obtain ⟨a, -, rfl⟩ := List.mem_map.1 hd
      rfl
  have hdue : ∀ as : List PlannedAction,
      (as.map (Deed.execute task.name)).filterMap (Deed.dispatch? r) =
        as.map fun a => (task.name, a.index, ⟨r.wrap a.action.script, []⟩) := by
    intro as
    rw [List.filterMap_map, ← List.filterMap_eq_map']
    rfl
  rw [deeds_eq, List.filterMap_append, hfirst, List.nil_append,
    List.filterMap_cons_none (by rfl), hdue, map_due]

/-- The first command without a marker does not come before one if and only if all before that
have markers. -/
theorem le_firstMissing_iff {k : Nat} (hk : k ≤ task.checksums.length) :
    k ≤ task.firstMissing marked ↔ ∀ s ∈ task.checksums.take k, s ∈ marked := by
  constructor
  · intro h s hs
    obtain ⟨i, hi, rfl⟩ := List.mem_take_iff_getElem.1 hs
    have hlt := Nat.lt_of_lt_of_le (Nat.lt_of_lt_of_le hi (Nat.min_le_left _ _)) h
    simpa using List.not_of_lt_findIdx hlt
  · intro h
    refine Nat.le_of_not_lt fun hlt => ?_
    have hmissing := List.findIdx_getElem (w := Nat.lt_of_lt_of_le hlt hk)
    simp only [decide_eq_true_eq] at hmissing
    refine hmissing (h _ (List.mem_take_iff_getElem.2 ⟨_, ?_, rfl⟩))
    exact Nat.lt_min.2 ⟨hlt, Nat.lt_of_lt_of_le hlt hk⟩

theorem firstMissing_le : task.firstMissing marked ≤ task.checksums.length :=
  List.findIdx_le_length

/-- The cache reaches to the first command without a marker. -/
theorem reach_eq_firstMissing (hnodup : task.checksums.Nodup)
    (hknown : ∀ s, s ∈ known ↔ s ∈ marked) : task.reach known = task.firstMissing marked := by
  apply Nat.le_antisymm
  · rw [le_firstMissing_iff (Plan.reach_le _ _)]
    intro s hs
    exact (hknown s).1 (Plan.mem_of_mem_take_reach hs)
  · have hnodup' := (List.take_sublist (task.firstMissing marked) task.checksums).nodup hnodup
    refine Plan.le_reach hnodup' firstMissing_le fun s hs => (hknown s).2 ?_
    exact (le_firstMissing_iff firstMissing_le).1 (Nat.le_refl _) s hs

theorem le_of_mem_dispatches {first i : Nat} {t : String} {call : Call}
    (h : (t, i, call) ∈ task.dispatches r first) : task.name = t ∧ first ≤ i := by
  obtain ⟨⟨script, j⟩, hm, he⟩ := List.mem_map.1 h
  obtain ⟨rfl, rfl, -⟩ := Prod.mk.inj he |>.imp_right Prod.mk.inj
  obtain ⟨k, hk, hget⟩ := List.mem_drop_iff_getElem.1 hm
  have hj := congrArg Prod.snd hget
  simp only [List.getElem_zipIdx] at hj
  exact ⟨rfl, by omega⟩

/-- The deeds of a run send the commands of every task from the first without a marker. -/
theorem dispatch_itinerary {root : String} {inv : Inventory} (h : Known root fs inv)
    (hb : fs.Below root) (hs : Submittable tasks) (hc : CollisionFree tasks) :
    (itinerary tasks inv).filterMap (Deed.dispatch? r) =
      tasks.flatMap fun t => t.dispatches r (t.firstMissing (fs.sums root .success t.name)) := by
  rw [itinerary_eq hs.names, List.filterMap_flatMap, List.flatMap_def, List.flatMap_def]
  congr 1
  refine List.map_congr_left fun t ht => ?_
  rw [dispatch_deeds, reach_eq_firstMissing (nodup_checksums hc ht (hs.scripts t ht))
    (h.mem_sums hb t.name)]

end Task

/-! ### One run -/

namespace RunCourse

variable {tasks : List Task} {ends : Counts → Prop}

/-- A run sends the commands of every task in order, from the first without a marker, and all of
them if it comes to a good end. -/
theorem dispatched_prefix (h : RunCourse r part tasks fs ms fs' ends)
    (hb : fs.Below r.settings.cacheRoot) (hs : Submittable tasks) (hc : CollisionFree tasks) :
    dispatched ms <+: (tasks.flatMap fun t =>
        t.dispatches r (t.firstMissing (fs.sums r.settings.cacheRoot .success t.name))) ∧
      ∀ c, ends c → dispatched ms = tasks.flatMap fun t =>
        t.dispatches r (t.firstMissing (fs.sums r.settings.cacheRoot .success t.name)) := by
  cases h with
  | idle h hend =>
    rw [dispatched, acts_quiet h.quiet]
    exact ⟨List.nil_prefix, fun c hc => absurd hc (hend c)⟩
  | working known deeds underway hend =>
    rw [← Task.dispatch_itinerary known hb hs hc, deeds]
    refine ⟨underway.dispatched_prefix, fun c hc => ?_⟩
    obtain ⟨rfl, -⟩ := hend c hc
    rw [List.append_nil]
    exact underway.dispatched_eq

end RunCourse

end Provisioning
