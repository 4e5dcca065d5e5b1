import Provisioning.Proofs.Run.Completion
import Provisioning.Proofs.Run.Dispatch

/-!
# Runs take up where earlier ones were cut off

Where every script does all of its work or none, each run of the same tasks begins every task at the
first command without a marker of success, and no run falls behind another.

* `RunCourse.firstMissing_le` : a run never moves the first command without a marker back;
* `RunCourse.pairwise_effects` : nothing is deleted after it was marked;
* `History.resumes` : over a whole history, what was marked once is neither sent nor deleted again.
-/

namespace Provisioning

variable {r : Runner} {part : Failing} {fs fs' : Files} {ms : List (Moment Files)}
  {past ahead : List Deed}

/-! ### The first command without a marker -/

namespace RunCourse

variable {tasks : List Task} {ends : Counts → Prop}

/-- A run never moves the first command without a marker back. -/
theorem firstMissing_le (h : RunCourse r .whole tasks fs ms fs' ends)
    (hb : fs.Below r.settings.cacheRoot) (hs : Submittable tasks) (hc : CollisionFree tasks)
    {task : Task} (ht : task ∈ tasks) :
    task.firstMissing (fs.sums r.settings.cacheRoot .success task.name) ≤
      task.firstMissing (fs'.sums r.settings.cacheRoot .success task.name) := by
  cases h with
  | idle h hend => rw [Files.sums_eq_of_markers_eq h.markers]
  | working known deeds underway hend =>
    obtain ⟨done, rest, hsplit, -, hexact⟩ := underway.exists_hasExactly fun d hd =>
      Task.proper_of_mem_itinerary hs (deeds ▸ hd)
    rw [hsplit] at deeds
    obtain ⟨l, hl, -, hstage⟩ := known.exists_stage hb hs.names ht
      (deeds ▸ List.prefix_append done rest)
    rw [(hexact _ (slashless_of_nameFault (hs.valid _ ht))).1, hstage, Task.stage]
    split
    · exact Nat.le_refl _
    · rw [← Task.reach_eq_firstMissing (Task.nodup_checksums hc ht (hs.scripts _ ht))
        (known.mem_sums hb task.name), Task.le_firstMissing_iff (Plan.reach_le _ _)]
      intro s hs
      exact List.take_subset_take_left _ (show task.reach _ ≤ l - 2 by omega) hs

end RunCourse

/-! ### What is deleted comes before what is marked -/

/-- The path of the marker of success of a command. -/
def Task.donePath (task : Task) (root sum : String) : String :=
  Mark.success.path (Cache.taskDir root task.name) sum

/-- No task is swept after one of its commands was executed. -/
def Deed.InOrder (d d' : Deed) : Prop :=
  ∀ t a stale, d = .execute t a → d' ≠ .sweep t stale

namespace Task

variable {task : Task} {tasks : List Task}

theorem pairwise_deeds (known : List String) : (task.deeds known).Pairwise Deed.InOrder := by
  have hfirst : ∀ d ∈ task.firstDeeds known, ∀ t a, d ≠ .execute t a := by
    rintro d hd t a rfl
    simp [firstDeeds] at hd
  rw [deeds_eq, List.pairwise_append, List.pairwise_cons, List.pairwise_map]
  refine ⟨?_, ⟨?_, ?_⟩, ?_⟩
  · refine List.pairwise_iff_forall_sublist.2 fun {d d'} h t a _ hd => ?_
    exact absurd hd (hfirst d (h.subset List.mem_cons_self) t a)
  · intro d _ t a stale hd
    cases hd
  · exact List.pairwise_iff_forall_sublist.2 fun _ t a stale _ hd => by cases hd
  · intro d hd d' _ t a _ he
    exact absurd he (hfirst d hd t a)

theorem pairwise_itinerary (hn : (tasks.map name).Nodup) (inv : Inventory) :
    (itinerary tasks inv).Pairwise Deed.InOrder := by
  rw [itinerary_eq hn, List.pairwise_flatMap]
  refine ⟨fun task _ => pairwise_deeds _, ?_⟩
  rw [List.nodup_iff_pairwise_ne, List.pairwise_map] at hn
  refine hn.imp fun hne d hd d' hd' t a stale he he' => hne ?_
  rw [← task_of_mem_deeds hd, ← task_of_mem_deeds hd', he, he']
  rfl

/-- Nothing is deleted after it was marked. -/
theorem pairwise_ops (root : String) (hs : Submittable tasks) (ht : task ∈ tasks) (inv : Inventory)
    (sum : String) :
    ((itinerary tasks inv).flatMap (Deed.ops root)).Pairwise fun x y =>
      x = .write (task.donePath root sum) → y ≠ .remove (task.donePath root sum) := by
  have hname := slashless_of_nameFault (hs.valid task ht)
  have hproper : ∀ d ∈ itinerary tasks inv, Slashless d.task :=
    fun d hd => (proper_of_mem_itinerary hs hd).slashless
  rw [List.pairwise_flatMap]
  refine ⟨fun d hd => List.pairwise_iff_forall_sublist.2 fun {x y} h hx hy => ?_, ?_⟩
  · -- within one deed: one that executes does not sweep
    obtain ⟨a, rfl, -⟩ := Deed.exists_execute_of_write_mem (hproper d hd) hname
      (.inl (hx ▸ h.subset List.mem_cons_self))
    obtain ⟨stale, he, -⟩ := Deed.exists_sweep_of_remove_mem (hproper _ hd) hname
      (.inl (hy ▸ h.subset (List.mem_cons_of_mem _ List.mem_cons_self)))
    cases he
  · refine (pairwise_itinerary hs.names inv).imp_of_mem ?_
    intro d d' hd hd' hin x hx y hy hxe hye
    obtain ⟨a, rfl, -⟩ := Deed.exists_execute_of_write_mem (hproper d hd) hname (.inl (hxe ▸ hx))
    obtain ⟨stale, rfl, -⟩ := Deed.exists_sweep_of_remove_mem (hproper d' hd') hname
      (.inl (hye ▸ hy))
    exact hin _ _ _ rfl rfl

end Task

/-- What was sent for the sake of markers belongs to a deed done or under way. -/
theorem Underway.mem_effects (h : Underway r part past ahead fs ms fs') {op : FileOp}
    (hop : op ∈ effects ms) : ∃ d ∈ past ++ ahead.take 1,
      op ∈ d.ops r.settings.cacheRoot ∨ op ∈ d.lapse r.settings.cacheRoot := by
  obtain ⟨ops, hsent, hops⟩ := h.sent
  rw [hsent, List.mem_append] at hop
  rcases hop with hop | hop
  · obtain ⟨d, hd, hop⟩ := List.mem_flatMap.1 hop
    exact ⟨d, List.mem_append_left _ hd, .inl hop⟩
  · rcases hops with rfl | ⟨d, hd, hd'⟩
    · simp at hop
    · obtain ⟨rest, rfl⟩ := List.head?_eq_some_iff.1 hd
      refine ⟨d, by simp, ?_⟩
      rcases hd' with rfl | rfl
      · exact .inl hop
      · exact .inr hop

namespace RunCourse

variable {tasks : List Task} {ends : Counts → Prop} {task : Task}

/-- In all that a run sends nothing is deleted after it was marked. -/
theorem pairwise_effects (h : RunCourse r part tasks fs ms fs' ends) (hs : Submittable tasks)
    (ht : task ∈ tasks) (sum : String) :
    (effects ms).Pairwise fun x y => x = .write (task.donePath r.settings.cacheRoot sum) →
      y ≠ .remove (task.donePath r.settings.cacheRoot sum) := by
  cases h with
  | idle h hend =>
    rw [h.sent]
    exact .nil
  | @working inv past ahead known deeds underway hend =>
    have hall := Task.pairwise_ops r.settings.cacheRoot hs ht inv sum
    rw [deeds, List.flatMap_append] at hall
    have hpast := (List.pairwise_append.1 hall).1
    obtain ⟨ops, hsent, rfl | ⟨d, hd, rfl | rfl⟩⟩ := underway.sent
    · -- nothing was sent of the deed under way
      rw [hsent, List.append_nil]
      exact hpast
    · obtain ⟨rest, rfl⟩ := List.head?_eq_some_iff.1 hd
      rw [List.flatMap_cons, ← List.append_assoc] at hall
      rw [hsent]
      exact hall.sublist (List.sublist_append_left _ _)
    · -- its command failed, and a mark of failure deletes nothing
      rw [hsent, List.pairwise_append]
      refine ⟨hpast, ?_, ?_⟩
      · refine List.pairwise_iff_forall_sublist.2 fun {x y} h _ => ?_
        rintro rfl
        exact Deed.remove_not_mem_lapse (h.subset (List.mem_cons_of_mem _ List.mem_cons_self))
      · rintro x - y hy -
        rintro rfl
        exact Deed.remove_not_mem_lapse hy

/-- If a run has sent the marker of success of a command, and the marker is there, then it is there
for all commands up to that one. -/
theorem lt_firstMissing (h : RunCourse r .whole tasks fs ms fs' ends)
    (hb : fs.Below r.settings.cacheRoot) (hs : Submittable tasks) (hc : CollisionFree tasks)
    (ht : task ∈ tasks) {i : Nat} (hi : i < task.checksums.length)
    (hw : .write (task.donePath r.settings.cacheRoot task.checksums[i]) ∈ effects ms)
    (hp : task.donePath r.settings.cacheRoot task.checksums[i] ∈ fs') :
    i < task.firstMissing (fs'.sums r.settings.cacheRoot .success task.name) := by
  have hname := slashless_of_nameFault (hs.valid task ht)
  have hnodup := Task.nodup_checksums hc ht (hs.scripts task ht)
  have hin : task.checksums[i] ∈ fs'.sums r.settings.cacheRoot .success task.name :=
    ⟨Task.slashless_checksum (List.getElem_mem hi), hp⟩
  cases h with
  | idle h hend => simp [h.sent] at hw
  | @working inv past ahead known deeds underway hend =>
    obtain ⟨d, hd, hwrite⟩ := underway.mem_effects hw
    have hbegun : past ++ ahead.take 1 <+: Task.itinerary tasks inv :=
      deeds ▸ (List.prefix_append_right_inj past).2 (List.take_prefix 1 ahead)
    have hproper := (Task.proper_of_mem_itinerary hs (hbegun.subset hd)).slashless
    obtain ⟨a, rfl, hsum⟩ := Deed.exists_execute_of_write_mem hproper hname hwrite
    -- where the command stands among the deeds of its task
    obtain ⟨l₁, hl₁, hfilter₁⟩ := Task.exists_take_deeds hs.names ht hbegun
    have hmem : Deed.execute task.name a ∈ (task.deeds (inv.sums task.name)).take l₁ :=
      hfilter₁ ▸ List.mem_filter.2 ⟨hd, by simp [Deed.task]⟩
    obtain ⟨j, hj, hget⟩ := List.mem_take_iff_getElem.1 hmem
    obtain ⟨i', rfl, hreach, ha⟩ := task.getElem?_deeds_execute (inv.sums task.name)
      (List.getElem?_eq_some_iff.2 ⟨_, hget⟩)
    obtain ⟨hlt, rfl⟩ := List.getElem?_eq_some_iff.1 ha
    rw [Plan.getElem_actions] at hsum
    obtain rfl : i' = i := (List.getElem_inj hnodup).1 hsum
    -- how many of these are done
    obtain ⟨done, rest, hsplit, hpast, hexact⟩ := underway.exists_hasExactly fun d hd =>
      Task.proper_of_mem_itinerary hs (deeds ▸ hd)
    obtain ⟨l, hl, hfilter, hstage⟩ := known.exists_stage hb hs.names ht
      (deeds ▸ hsplit ▸ List.prefix_append done rest)
    have hlen : l₁ ≤ l + 1 := by
      have hlen₁ := congrArg List.length hfilter₁
      have hlen := congrArg List.length hfilter
      have hone : ((ahead.take 1).filter (·.task = task.name)).length ≤ 1 :=
        Nat.le_trans (List.length_filter_le _ _) (by simp)
      have hle := (hpast.filter (·.task = task.name)).length_le
      rw [List.filter_append, List.length_append, List.length_take, Task.length_deeds] at hlen₁
      rw [List.length_take] at hlen
      omega
    rw [(hexact _ hname).1, hstage, Task.stage, if_neg (by omega)] at hin ⊢
    obtain ⟨k, hk, heq⟩ := List.mem_take_iff_getElem.1 hin
    obtain rfl := (List.getElem_inj hnodup).1 heq
    rw [← Nat.succ_le_iff, Task.le_firstMissing_iff (by omega)]
    intro s hs
    exact List.take_subset_take_left _ (by omega) hs

/-- A run does not delete the marker of a command if all commands up to that one have markers. -/
theorem remove_not_mem_effects (h : RunCourse r part tasks fs ms fs' ends)
    (hb : fs.Below r.settings.cacheRoot) (hs : Submittable tasks) (hc : CollisionFree tasks)
    (ht : task ∈ tasks) {i : Nat} (hi : i < task.checksums.length)
    (hlt : i < task.firstMissing (fs.sums r.settings.cacheRoot .success task.name)) :
    .remove (task.donePath r.settings.cacheRoot task.checksums[i]) ∉ effects ms := by
  intro hr
  cases h with
  | idle h hend => simp [h.sent] at hr
  | @working inv past ahead known deeds underway hend =>
    obtain ⟨d, hd, hremove⟩ := underway.mem_effects hr
    have hd : d ∈ Task.itinerary tasks inv :=
      deeds ▸ ((List.prefix_append_right_inj past).2 (List.take_prefix 1 ahead)).subset hd
    obtain ⟨stale, rfl, hstale⟩ := Deed.exists_sweep_of_remove_mem
      (Task.proper_of_mem_itinerary hs hd).slashless (slashless_of_nameFault (hs.valid task ht))
      hremove
    obtain ⟨-, rfl⟩ := (task.sweep_mem_deeds _).1
      (Task.mem_deeds_of_mem_itinerary hs.names ht hd rfl)
    rw [Plan.mem_stale] at hstale
    rw [← Task.reach_eq_firstMissing (Task.nodup_checksums hc ht (hs.scripts task ht))
      (known.mem_sums hb task.name)] at hlt
    exact hstale.2 (List.mem_take_iff_getElem.2 ⟨i, Nat.lt_min.2 ⟨hlt, hi⟩, rfl⟩)

end RunCourse

/-! ### Histories -/

namespace HostRun

/-- Whether a run has made a file: it was told to, and then the file was there. -/
def Makes (run : HostRun) (path : String) : Prop :=
  ∃ m ∈ run.moments, .write path ∈ m.exchange.effect ∧ path ∈ m.after

/-- A marker that was not there before the run is made by it. -/
theorem Leaves.makes {run : HostRun} {root : String} {part : Failing} {p : String}
    (h : run.Leaves root part fs) (hm : Files.IsMarker p) (hold : p ∉ run.start) (hp : p ∈ fs) :
    run.Makes p :=
  exists_write_of_goes h.goes hm hold hp

/-- Whether a run leaves a command, and its marker, as it found them. -/
structure Spares (run : HostRun) (root : String) (task : Task) (i : Nat)
    (hi : i < task.checksums.length) : Prop where
  /-- The command is not sent. -/
  sent : ∀ call, (task.name, i, call) ∉ dispatched run.moments
  /-- Its marker is not deleted. -/
  deleted : ∀ m ∈ run.moments, .remove (task.donePath root task.checksums[i]) ∉ m.exchange.effect
  /-- Its marker stays. -/
  kept : ∀ m ∈ run.moments, task.donePath root task.checksums[i] ∈ m.after

/-- What a run has to send: the commands of every task from the first without a marker. -/
noncomputable def agenda (run : HostRun) : List (String × Nat × Call) :=
  run.tasks.flatMap fun t => t.dispatches run.runner
    (t.firstMissing (run.start.sums run.runner.settings.cacheRoot .success t.name))

variable {root : String} {run : HostRun} {task : Task} {i : Nat}

/-- A run that made the marker of success of a command leaves it, and those of all commands before
that one. -/
theorem Leaves.lt_firstMissing (h : run.Leaves root .whole fs) (hb : run.start.Below root)
    (hs : Submittable run.tasks) (hc : CollisionFree run.tasks) (ht : task ∈ run.tasks)
    (hi : i < task.checksums.length) (hm : run.Makes (task.donePath root task.checksums[i])) :
    i < task.firstMissing (fs.sums root .success task.name) := by
  obtain ⟨m, hm, hw, hp⟩ := hm
  have hcourse := h.course
  obtain ⟨rfl, hgoes⟩ := h
  obtain ⟨ms, ms', hms⟩ := List.append_of_mem hm
  have hsent : effects run.moments = effects ms ++ (m.exchange.effect ++ effects ms') := by
    rw [hms, effects_append, effects_cons]
  refine hcourse.lt_firstMissing hb hs hc ht hi ?_ ?_
  · rw [hsent]
    exact List.mem_append_right _ (List.mem_append_left _ hw)
  · -- what was marked is not deleted any more
    have hpairs := hcourse.pairwise_effects hs ht task.checksums[i]
    rw [hsent, List.pairwise_append, List.pairwise_append] at hpairs
    rw [hms, List.append_cons] at hgoes
    obtain ⟨s₁, fs₁, h₁, h₂⟩ := hgoes.append_inv
    obtain rfl := h₁.after_eq
    exact mem_of_goes h₂ (Files.isMarker_path _ _ _) hp fun hr =>
      hpairs.2.1.2.2 _ hw _ hr rfl rfl

/-- A run leaves a command as it found it if all commands up to that one have markers. -/
theorem Leaves.spares (h : run.Leaves root .whole fs) (hb : run.start.Below root)
    (hs : Submittable run.tasks) (hc : CollisionFree run.tasks) (ht : task ∈ run.tasks)
    (hi : i < task.checksums.length)
    (hlt : i < task.firstMissing (run.start.sums root .success task.name)) :
    run.Spares root task i hi where
  sent call hmem := by
    have hcourse := h.course
    obtain ⟨rfl, -⟩ := h
    have hmem := (hcourse.dispatched_prefix hb hs hc).1.subset hmem
    obtain ⟨task', ht', hmem⟩ := List.mem_flatMap.1 hmem
    obtain ⟨hname, hle⟩ := Task.le_of_mem_dispatches hmem
    obtain rfl := List.inj_on_of_nodup_map hs.names ht' ht hname
    omega
  deleted m hm hr := by
    have hcourse := h.course
    obtain ⟨rfl, -⟩ := h
    exact hcourse.remove_not_mem_effects hb hs hc ht hi hlt (List.mem_flatMap.2 ⟨m, hm, hr⟩)
  kept m hm := by
    obtain ⟨ms, ms', hms⟩ := List.append_of_mem hm
    obtain ⟨rest, hupto⟩ := h.upto hms
    have hcourse := hupto.course
    obtain ⟨rfl, -⟩ := h
    have hle := hcourse.firstMissing_le hb hs hc ht
    have hall := (Task.le_firstMissing_iff hi).1 (Nat.lt_of_lt_of_le hlt hle)
    exact (hall _ (List.mem_take_iff_getElem.2 ⟨i, by omega, rfl⟩)).2

end HostRun

variable {root : String} {fs₀ : Files} {earlier later between : List HostRun} {writer run : HostRun}
  {tasks : List Task} {task : Task} {i : Nat}

/-- What was marked stays marked in all later runs of the same tasks. -/
theorem History.lt_firstMissing (h : History root .whole fs₀ (earlier ++ writer :: later) fs)
    (htasks : ∀ run ∈ earlier ++ writer :: later, run.tasks = tasks) (hb : fs₀.Below root)
    (hs : Submittable tasks) (hc : CollisionFree tasks) (ht : task ∈ tasks)
    (hi : i < task.checksums.length) (hm : writer.Makes (task.donePath root task.checksums[i])) :
    i < task.firstMissing (fs.sums root .success task.name) := by
  induction later using List.reverseRecOn generalizing fs with
  | nil =>
    obtain ⟨before, last⟩ := h.snoc_inv
    rw [List.forall_mem_append, List.forall_mem_singleton] at htasks
    -- the writer itself is the last run
    have hstart := before.files_below hb fun run hr => htasks.1 run hr ▸ hs
    obtain ⟨-, rfl⟩ := htasks
    exact last.lt_firstMissing hstart hs hc ht hi hm
  | append_singleton later run ih =>
    rw [← List.cons_append, ← List.append_assoc] at h htasks
    obtain ⟨before, last⟩ := h.snoc_inv
    rw [List.forall_mem_append, List.forall_mem_singleton] at htasks
    have hstart := before.files_below hb fun run hr => htasks.1 run hr ▸ hs
    -- one more run never moves the first command without a marker back
    have hlt := ih before htasks.1
    have hcourse := last.course
    obtain ⟨rfl, -⟩ := last
    obtain ⟨-, rfl⟩ := htasks
    exact Nat.lt_of_lt_of_le hlt (hcourse.firstMissing_le hstart hs hc ht)

/-- In every history of runs of the same tasks, whatever the host had in the beginning and wherever
the runs were cut off, a run sends the commands of every task in order from the first without a
marker of success, all of them if it comes to a good end; and a command whose marker was made in
one run is not sent, nor its marker deleted, in any later one.  Listings tell the truth in a
history, as they do under a root that does not end in two slashes (`Allowed.found`); under other
roots no marker is found, and every run begins anew. -/
theorem History.resumes
    (h : History root .whole fs₀ (earlier ++ writer :: (between ++ [run])) fs)
    (htasks : ∀ run' ∈ earlier ++ writer :: (between ++ [run]), run'.tasks = tasks)
    (hb : fs₀.Below root) (hs : Submittable tasks) (hc : CollisionFree tasks) :
    (∀ task ∈ tasks, ∀ i (hi : i < task.checksums.length),
        writer.Makes (task.donePath root task.checksums[i]) → run.Spares root task i hi) ∧
      dispatched run.moments <+: run.agenda ∧
        ∀ c, run.rest = .done (.ok c) → dispatched run.moments = run.agenda := by
  rw [← List.cons_append, ← List.append_assoc] at h htasks
  obtain ⟨before, last⟩ := h.snoc_inv
  rw [List.forall_mem_append, List.forall_mem_singleton] at htasks
  have hstart := before.files_below hb fun run' hr => htasks.1 run' hr ▸ hs
  obtain ⟨hbefore, rfl⟩ := htasks
  refine ⟨fun task ht i hi hm => ?_, ?_⟩
  · exact last.spares hstart hs hc ht hi (before.lt_firstMissing hbefore hb hs hc ht hi hm)
  · have hcourse := last.course
    obtain ⟨rfl, -⟩ := last
    exact hcourse.dispatched_prefix hstart hs hc

/-- A run that was cut off once it had marked a command, and the next one, which takes up after that
command. -/
theorem History.greeting_resumed : ∃ writer run fs,
    ∃ hi : 0 < Task.greeting.checksums.length,
      History Runner.byDefault.settings.cacheRoot .whole ∅ ([] ++ writer :: ([] ++ [run])) fs ∧
        writer.tasks = [.greeting] ∧ run.tasks = [.greeting] ∧
        writer.Makes (Task.greeting.donePath Runner.byDefault.settings.cacheRoot
          Task.greeting.checksums[0]) ∧
        run.Spares Runner.byDefault.settings.cacheRoot .greeting 0 hi ∧
        dispatched run.moments = run.agenda := by
  have hi : 0 < Task.greeting.checksums.length := by simp [Task.greeting]
  have hs := Task.submittable_greeting
  have h : History Runner.byDefault.settings.cacheRoot .whole ∅ [] ∅ := .nil
  obtain ⟨whole, fs₁, -, ht, h, c, hc⟩ := h.exists_fine (by simp) (.empty _)
    Files.finite_markers_empty rfl Runner.legible_byDefault [.greeting]
  obtain ⟨hstart, hwhole⟩ := History.singleton_iff.1 h
  -- the whole run marks the first command, and is cut off there
  have hset := hwhole.course.settled hc (hstart ▸ (Files.below_empty _)) (ht ▸ hs)
    .greeting (by simp [ht])
  rw [hwhole.cacheRoot] at hset
  have hmarked : Task.greeting.checksums[0] ∈ Task.greeting.checksums := List.getElem_mem hi
  obtain ⟨-, hp⟩ := (Set.ext_iff.1 hset _).2 hmarked
  obtain ⟨m, hm, hw, hp⟩ := hwhole.makes (Files.isMarker_path _ _ _)
    (hstart ▸ Set.notMem_empty _) hp
  obtain ⟨ms, ms', hms⟩ := List.append_of_mem hm
  obtain ⟨rest, hcut⟩ := hwhole.upto hms
  generalize hwriter : ({ whole with moments := ms ++ [m], rest := rest } : HostRun) = writer
    at hcut
  have ht₁ : writer.tasks = [.greeting] := hwriter ▸ ht
  have hstart : writer.start = ∅ := hwriter ▸ hstart
  have hmakes : writer.Makes (Task.greeting.donePath Runner.byDefault.settings.cacheRoot
      Task.greeting.checksums[0]) := ⟨m, by simp [← hwriter], hw, hp⟩
  have hbefore := History.singleton_iff.2 ⟨hstart, hcut⟩
  obtain ⟨run, fs, -, ht₂, h, c', hc'⟩ := hbefore.exists_fine (by simpa [ht₁] using hs)
    (.empty _) Files.finite_markers_empty rfl Runner.legible_byDefault [.greeting]
  have h : History Runner.byDefault.settings.cacheRoot .whole ∅
      ([] ++ writer :: ([] ++ [run])) fs := h
  obtain ⟨hspares, -, hall⟩ := History.resumes h (by simp [ht₁, ht₂])
    (Files.below_empty _) hs (Task.collisionFree_greetings.mono (by simp))
  exact ⟨writer, run, fs, hi, h, ht₁, ht₂, hmakes, hspares _ (by simp) 0 hi hmakes, hall c' hc'⟩

end Provisioning
