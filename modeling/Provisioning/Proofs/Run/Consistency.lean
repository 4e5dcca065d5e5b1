import Provisioning.Proofs.Run.Completion

/-!
# The markers of a host are those of one version of each task

Where every script does all of its work or none, the markers of a task are at every moment those of
the first commands of a list of commands that was submitted for it, whatever was submitted for it
before and wherever runs were cut off (`Consistent`).

* `Consistent.of_course` : a run that may be cut off anywhere leaves a consistent host consistent;
* `History.markers_consistent` : a host whose cache was empty in the beginning is consistent at
  every moment.
-/

namespace Provisioning

/-- Whether the markers of a host are such as come of submitted tasks. -/
structure Consistent (root : String) (tasks : List Task) (fs : Files) : Prop where
  /-- The markers of success of a task are those of the first commands of one of its versions. -/
  version : ∀ t, Slashless t → fs.sums root .success t = ∅ ∨
    ∃ task ∈ tasks, task.name = t ∧ ∃ n ≤ task.checksums.length,
      fs.sums root .success t = {s | s ∈ task.checksums.take n}
  /-- No command is marked both as successful and as failed. -/
  apart : ∀ t, Slashless t → ∀ s ∈ fs.sums root .success t, s ∉ fs.sums root .failure t

namespace Consistent

variable {root : String} {tasks tasks' : List Task} {fs fs' : Files}

theorem empty (root : String) : Consistent root tasks ∅ where
  version t _ := .inl (by ext s; simp [Files.sums])
  apart t _ s hs := absurd hs.2 (Set.notMem_empty _)

theorem of_markers_eq (h : Consistent root tasks fs) (hm : fs'.markers = fs.markers) :
    Consistent root tasks fs' where
  version t ht := by
    rw [Files.sums_eq_of_markers_eq hm]
    exact h.version t ht
  apart t ht := by
    rw [Files.sums_eq_of_markers_eq hm, Files.sums_eq_of_markers_eq hm]
    exact h.apart t ht

variable (task : Task) (σ : Tabs) {known : List String}

/-- Each stage of a task has markers of one version: the old one up to the sweep, the new one from
there on. -/
theorem version_stage (hσ : σ .success = ∅ ∨ ∃ t ∈ tasks, t.name = task.name ∧
      ∃ n ≤ t.checksums.length, σ .success = {s | s ∈ t.checksums.take n})
    (ht : task ∈ tasks) {l : Nat} (hl : l ≤ task.actions.length + 2) :
    task.stage known σ l .success = ∅ ∨ ∃ t ∈ tasks, t.name = task.name ∧
      ∃ n ≤ t.checksums.length, task.stage known σ l .success = {s | s ∈ t.checksums.take n} := by
  rw [Task.stage]
  split
  · exact hσ
  · refine .inr ⟨task, ht, rfl, l - 2, ?_, rfl⟩
    rw [Task.length_checksums]
    omega

/-- In each stage of a task no command is marked both as successful and as failed. -/
theorem apart_stage (hknown : ∀ s, s ∈ known ↔ s ∈ σ .success)
    (hσ : ∀ s ∈ σ .success, s ∉ σ .failure) (l : Nat) :
    ∀ s ∈ task.stage known σ l .success, s ∉ task.stage known σ l .failure := by
  rw [Task.stage, Task.stage]
  rintro s hs ⟨hfailed, hnot⟩
  split at hs
  · exact hσ s hs hfailed
  · -- the commands that were skipped have not failed, and the others were freed of that mark
    have hs : s ∈ task.checksums.take (l - 2) := hs
    rw [← List.take_append_drop (task.reach known) (task.checksums.take (l - 2)),
      List.mem_append] at hs
    rcases hs with hs | hs
    · rw [List.take_take, Nat.min_eq_left (by omega)] at hs
      exact hσ s ((hknown s).1 (Plan.mem_of_mem_take_reach hs)) hfailed
    · exact hnot hs

/-- The command that is executed next has no marker of success. -/
theorem sum_not_mem_stage (hnodup : task.checksums.Nodup) {l : Nat} {t : String}
    {a : PlannedAction} (hnext : (task.deeds known)[l]? = some (.execute t a)) :
    a.sum ∉ task.stage known σ l .success := by
  obtain ⟨i, rfl, hi, ha⟩ := task.getElem?_deeds_execute known hnext
  obtain ⟨hlt, rfl⟩ := List.getElem?_eq_some_iff.1 ha
  rw [Task.stage, if_neg (by omega), Plan.getElem_actions, Nat.add_sub_cancel]
  intro hm
  obtain ⟨j, hj, heq⟩ := List.mem_take_iff_getElem.1 hm
  have := (List.getElem_inj hnodup).1 heq
  omega

/-- A run that may be cut off anywhere leaves a consistent host consistent. -/
theorem of_course {r : Runner} {ms : List (Moment Files)} {ends : Counts → Prop}
    (h : Consistent r.settings.cacheRoot tasks fs) (hb : fs.Below r.settings.cacheRoot)
    (hs : Submittable tasks') (hsub : ∀ t ∈ tasks', t ∈ tasks) (hc : CollisionFree tasks)
    (hcourse : RunCourse r .whole tasks' fs ms fs' ends) :
    Consistent r.settings.cacheRoot tasks fs' := by
  cases hcourse with
  | idle hidle _ => exact h.of_markers_eq hidle.markers
  | @working inv past ahead known deeds underway _ =>
    obtain ⟨done, rest, hsplit, -, hexact⟩ := underway.exists_hasExactly fun d hd =>
      Task.proper_of_mem_itinerary hs (deeds ▸ hd)
    rw [hsplit] at deeds
    have hdone : done <+: Task.itinerary tasks' inv := deeds ▸ List.prefix_append _ _
    suffices hall : ∀ t, Slashless t → (fs'.sums r.settings.cacheRoot .success t = ∅ ∨
        ∃ task ∈ tasks, task.name = t ∧ ∃ n ≤ task.checksums.length,
          fs'.sums r.settings.cacheRoot .success t = {s | s ∈ task.checksums.take n}) ∧
        ∀ s ∈ fs'.sums r.settings.cacheRoot .success t,
          s ∉ fs'.sums r.settings.cacheRoot .failure t from
      ⟨fun t ht => (hall t ht).1, fun t ht => (hall t ht).2⟩
    -- each task is in one of its stages, but for a mark of failure on the command that is next
    intro t ht
    obtain ⟨hsuccess, hfailure⟩ := hexact t ht
    rw [hsuccess]
    by_cases hmem : t ∈ tasks'.map Task.name
    · obtain ⟨task, htask, rfl⟩ := List.mem_map.1 hmem
      obtain ⟨l, hl, hfilter, hstage⟩ := known.exists_stage hb hs.names htask hdone
      rw [hstage] at hfailure ⊢
      have hapart := apart_stage task (fun m => fs.sums r.settings.cacheRoot m task.name)
        (known.mem_sums hb task.name) (h.apart _ ht) l
      refine ⟨version_stage task _ (h.version _ ht) (hsub task htask) hl, ?_⟩
      rcases hfailure with hfailure | ⟨a, hnext, hfailure⟩
      · rw [hfailure]
        exact hapart
      · -- the command that is next has just failed
        have hnext := Task.getElem?_deeds_of_head? hs.names htask deeds hfilter hnext rfl
        have hnodup := Task.nodup_checksums hc (hsub task htask) (hs.scripts task htask)
        rw [hfailure]
        rintro s hs (rfl | hfailed)
        · exact sum_not_mem_stage task _ hnodup hnext hs
        · exact hapart s hs hfailed
    · -- a task that this run has nothing to do with
      rw [reached_of_not_mem hs.names hmem hdone] at hfailure ⊢
      refine ⟨h.version t ht, ?_⟩
      rcases hfailure with hfailure | ⟨a, hnext, -⟩
      · rw [hfailure]
        exact h.apart t ht
      · have hd : Deed.execute t a ∈ Task.itinerary tasks' inv :=
          deeds ▸ List.mem_append_right _ (List.mem_of_head? hnext)
        obtain ⟨task, htask, hd⟩ := (Task.mem_itinerary hs.names).1 hd
        obtain ⟨rfl, -⟩ := (task.execute_mem_deeds _).1 hd
        exact absurd (List.mem_map_of_mem htask) hmem

end Consistent

variable {root : String} {runs earlier later : List HostRun} {run : HostRun} {fs : Files}

/-- A history of a host whose cache was empty ends with a consistent host. -/
theorem History.consistent {tasks : List Task} (h : History root .whole ∅ runs fs)
    (hs : ∀ run ∈ runs, Submittable run.tasks) (hsub : ∀ t ∈ submitted runs, t ∈ tasks)
    (hc : CollisionFree tasks) : Consistent root tasks fs := by
  induction h with
  | nil => exact .empty root
  | @snoc runs run fs before last ih =>
    have hb := before.files_below (Files.below_empty root)
      fun run hr => hs run (List.mem_append_left _ hr)
    rw [submitted_append, List.forall_mem_append] at hsub
    rw [List.forall_mem_append, List.forall_mem_singleton] at hs
    have hcourse := last.course
    obtain ⟨rfl, -⟩ := last
    refine (ih hs.1 hsub.1).of_course hb hs.2 (fun t ht => hsub.2 t ?_) hc hcourse
    rw [submitted, List.flatMap_singleton]
    exact ht

/-- At every moment of every history of a host whose cache was empty, its markers are those of
tasks that were submitted up to then: of every task those of the first commands of one version, and
none of them marked as failed.  Listings tell the truth in a history, as they do under a root that
does not end in two slashes (`Allowed.found`). -/
theorem History.markers_consistent (h : History root .whole ∅ (earlier ++ run :: later) fs)
    (hs : ∀ run' ∈ earlier ++ run :: later, Submittable run'.tasks)
    (hc : CollisionFree (submitted (earlier ++ run :: later))) :
    ∀ m ∈ run.moments, Consistent root (submitted (earlier ++ [run])) m.after := by
  intro m hm
  rw [List.append_cons] at h hs hc
  -- what comes after the moment in question does not matter
  obtain ⟨fs', h⟩ := h.upto_run
  obtain ⟨ms, rest, hupto⟩ := h.upto hm
  rw [submitted_append] at hc
  rw [List.forall_mem_append, List.forall_mem_append, List.forall_mem_singleton] at hs
  refine hupto.consistent ?_ ?_ (hc.mono fun t ht => List.mem_append_left _ ht)
  · rw [List.forall_mem_append, List.forall_mem_singleton]
    exact hs.1
  · intro t ht
    simpa [submitted] using ht

/-- Two runs for versions of one task: at every moment of the second there are markers of one of the
two alone. -/
theorem History.greeting_consistent : ∃ run₁ run₂ fs,
    History Runner.byDefault.settings.cacheRoot .whole ∅ ([run₁] ++ [run₂]) fs ∧
      run₁.tasks = [.greeting] ∧ run₂.tasks = [.greetingAtOnce] ∧
      (∃ c, run₁.rest = .done (.ok c)) ∧ (∃ c, run₂.rest = .done (.ok c)) ∧
      ∀ m ∈ run₂.moments, Consistent Runner.byDefault.settings.cacheRoot
        (submitted ([run₁] ++ [run₂])) m.after := by
  obtain ⟨run₁, run₂, fs, ht₁, ht₂, -, h, hc₁, hc₂⟩ := History.exists_two .whole rfl
    Runner.legible_byDefault Task.submittable_greeting [.greetingAtOnce]
  refine ⟨run₁, run₂, fs, h, ht₁, ht₂, hc₁, hc₂,
    History.markers_consistent h ?_ ?_⟩
  · simpa [ht₁, ht₂] using ⟨Task.submittable_greeting, Task.submittable_greetingAtOnce⟩
  · simpa [submitted, ht₁, ht₂] using Task.collisionFree_greetings

end Provisioning
