import Provisioning.Proofs.Run.History
import Provisioning.Proofs.Run.Success

/-!
# Runs that come to a good end

A run that comes to a good end has performed all deeds that follow from what the host had listed,
and leaves exactly the markers of its tasks.  Whatever a host has seen before, its next run can come
to a good end.

* `RunCourse.settled` : the markers after a run that came to a good end;
* `RunCourse.exists_cached` : what such a run skips;
* `History.exists_fine` : every history can go on with such a run.
-/

namespace Provisioning

variable {r : Runner} {part : Failing} {root : String} {fs₀ fs fs' : Files}
  {ms : List (Moment Files)} {tasks : List Task} {ends : Counts → Prop} {runs : List HostRun}

/-! ### What such a run has done -/

/-- A run that came to a good end has performed all of its deeds. -/
theorem RunCourse.completed (h : RunCourse r part tasks fs ms fs' ends) {c : Counts}
    (hc : ends c) : ∃ inv, Known r.settings.cacheRoot fs inv ∧ c = Task.tally tasks inv .zero ∧
      Underway r part (Task.itinerary tasks inv) [] fs ms fs' := by
  cases h with
  | idle _ hend => exact absurd hc (hend c)
  | working known deeds underway hend =>
    obtain ⟨rfl, hcounts⟩ := hend c hc
    rw [List.append_nil] at deeds
    subst deeds
    exact ⟨_, known, hcounts, underway⟩

/-- What was performed to the end has left its markers, and shows. -/
theorem Underway.finished {past : List Deed} (h : Underway r part past [] fs ms fs')
    (hp : ∀ d ∈ past, d.Proper) :
    (∀ t, Slashless t → ∀ m, fs'.sums r.settings.cacheRoot m t =
      reached r.settings.cacheRoot fs past t m) ∧ Shown r past (acts (exchanges ms)) := by
  obtain ⟨fs₁, did, as, bs, hfs₁, hfs', hacts, hshown, hhalf⟩ := h.exists_files hp
  cases hhalf
  rw [List.append_nil] at hacts
  refine ⟨fun t ht m => ?_, hacts ▸ hshown⟩
  rw [hfs', Files.after_nil, hfs₁ t ht m]

/-- Whether a host has exactly the markers of success of some tasks, as far as these are
concerned. -/
def Files.Settled (root : String) (tasks : List Task) (fs : Files) : Prop :=
  ∀ task ∈ tasks, fs.sums root .success task.name = {s | s ∈ task.checksums}

/-- The markers after a run that came to a good end. -/
theorem RunCourse.settled (h : RunCourse r part tasks fs ms fs' ends) {c : Counts} (hc : ends c)
    (hb : fs.Below r.settings.cacheRoot) (hs : Submittable tasks) :
    fs'.Settled r.settings.cacheRoot tasks := by
  intro task ht
  obtain ⟨inv, known, -, underway⟩ := h.completed hc
  obtain ⟨hfs', -⟩ := underway.finished fun d hd => Task.proper_of_mem_itinerary hs hd
  obtain ⟨l, hl, hfilter, hstage⟩ := known.exists_stage hb hs.names ht List.prefix_rfl
  -- all deeds of the task are done, so the last stage is reached
  have hall : l = task.actions.length + 2 := by
    have hlen := congrArg List.length hfilter
    rw [Task.filter_itinerary hs.names ht, List.length_take, Task.length_deeds] at hlen
    omega
  subst hall
  have hreach := task.reach_le (inv.sums task.name)
  rw [hfs' _ (slashless_of_nameFault (hs.valid task ht)), hstage, Task.stage, if_neg (by omega),
    Nat.add_sub_cancel, List.take_of_length_le (by simp)]

theorem Shown.skipped_mem {ds : List Deed} {as : List Act} (h : Shown r ds as) {t : String}
    {a : PlannedAction} (hd : .skip t a ∈ ds) : .skipped t a.index ∈ as := by
  induction ds generalizing as with
  | nil => simp at hd
  | cons d ds ih =>
    obtain ⟨bs, cs, rfl, hbs, hcs⟩ := h
    rcases List.mem_cons.1 hd with rfl | hd
    · obtain rfl : bs = [.skipped t a.index] := hbs
      exact List.mem_append_left _ List.mem_cons_self
    · exact List.mem_append_right _ (ih hcs hd)

/-- A run that comes to a good end skips a command if all commands up to that one were marked. -/
theorem RunCourse.exists_cached (h : RunCourse r part tasks fs ms fs' ends) {c : Counts}
    (hc : ends c) (hb : fs.Below r.settings.cacheRoot) (hs : Submittable tasks) {task : Task}
    (ht : task ∈ tasks) (hnodup : task.checksums.Nodup) {i : Nat} (hi : i < task.checksums.length)
    (hmarked : ∀ s ∈ task.checksums.take (i + 1),
      s ∈ fs.sums r.settings.cacheRoot .success task.name) :
    ∃ sum label, .told (.commandCached task.name i sum label) ∈ exchanges ms := by
  obtain ⟨inv, known, -, underway⟩ := h.completed hc
  obtain ⟨-, hshown⟩ := underway.finished fun d hd => Task.proper_of_mem_itinerary hs hd
  have hreach : i + 1 ≤ task.reach (inv.sums task.name) :=
    Plan.le_reach ((List.take_sublist _ _).nodup hnodup) hi fun s hs =>
      (known.mem_sums hb _ _).2 (hmarked s hs)
  have hlt : i < (Plan.ofTask task (inv.sums task.name)).actions.length := by
    simpa using Nat.lt_of_lt_of_le hreach (task.reach_le _)
  have hskip : .skip task.name (Plan.ofTask task (inv.sums task.name)).actions[i] ∈
      Task.itinerary tasks inv := by
    refine (Task.mem_itinerary hs.names).2 ⟨task, ht, (task.skip_mem_deeds _).2 ⟨rfl, ?_⟩⟩
    rw [Plan.skipped_eq]
    exact List.mem_take_iff_getElem.2 ⟨i, Nat.lt_min.2 ⟨hreach, hlt⟩, rfl⟩
  have hmem := hshown.skipped_mem hskip
  rw [Plan.getElem_actions] at hmem
  exact skipped_mem_acts_iff.1 hmem

/-- What is left of a task as it was is skipped by a run after one that came to a good end. -/
theorem History.exists_cached {run₁ run₂ : HostRun}
    (h : History root part ∅ ([run₁] ++ [run₂]) fs) {c₁ c₂ : Counts}
    (hc₁ : run₁.rest = .done (.ok c₁)) (hc₂ : run₂.rest = .done (.ok c₂))
    (hs : ∀ run ∈ [run₁] ++ [run₂], Submittable run.tasks)
    (hc : CollisionFree (submitted ([run₁] ++ [run₂]))) {old new : Task} (hold : old ∈ run₁.tasks)
    (hnew : new ∈ run₂.tasks) (hname : new.name = old.name) {i : Nat}
    (hi : i < new.checksums.length)
    (hsame : ∀ s ∈ new.checksums.take (i + 1), s ∈ old.checksums) :
    ∃ sum label, .told (.commandCached new.name i sum label) ∈ exchanges run₂.moments := by
  obtain ⟨before, last⟩ := h.snoc_inv
  obtain ⟨hstart, first⟩ := History.singleton_iff.1 before
  rw [List.forall_mem_append, List.forall_mem_singleton, List.forall_mem_singleton] at hs
  have hnodup : new.checksums.Nodup :=
    Task.nodup_checksums hc (by simp [submitted, hnew]) (hs.2.scripts new hnew)
  have hcourse₁ := first.course
  have hcourse₂ := last.course
  obtain ⟨rfl, -⟩ := first
  obtain ⟨hroot, -⟩ := last
  have hb : run₁.start.Below run₁.runner.settings.cacheRoot :=
    hstart ▸ Files.below_empty _
  have hset := hcourse₁.settled hc₁ hb hs.1 old hold
  have hb₂ := hcourse₁.files_below hs.1 hb
  rw [← hroot] at hset hb₂
  refine hcourse₂.exists_cached hc₂ hb₂ hs.2 hnew hnodup hi fun s hs => ?_
  rw [hname, hset]
  exact hsame s hs

/-! ### What such a run leaves -/

theorem Files.Readable.empty (root : String) : Files.Readable root ∅ :=
  ⟨Files.below_empty root, fun _ hp => absurd hp (Set.notMem_empty _)⟩

theorem Files.finite_markers_empty : (∅ : Files).markers.Finite :=
  Set.finite_empty.subset fun _ hp => hp.1

/-- A cache that was listed without complaint, with all markers at their paths, lies below the
root. -/
theorem Known.below {inv : Inventory} (h : Known root fs inv) (hfs : fs.Legible) :
    fs.Below root := by
  obtain ⟨listing, hl, hinv⟩ := h
  exact Inventory.below_of_ofListing hfs hl hinv

/-- A cache that was listed without complaint holds nothing but markers. -/
theorem Known.readable {inv : Inventory} (h : Known root fs inv) (hb : fs.Below root) :
    fs.Readable root := by
  obtain ⟨listing, hl, hinv⟩ := h
  exact ⟨hb, fun p hp hd => Inventory.exists_marker_of_ofListing hb hl hinv hp hd⟩

/-- A run adds nothing but markers to the cache. -/
theorem RunCourse.readable (h : RunCourse r part tasks fs ms fs' ends) (hs : Submittable tasks)
    (hr : fs.Readable r.settings.cacheRoot) : fs'.Readable r.settings.cacheRoot := by
  refine ⟨h.files_below hs hr.below, fun p hp hl => ?_⟩
  cases h with
  | idle h _ =>
    have : p ∈ fs.markers := h.markers ▸ ⟨hp, hl.isMarker⟩
    exact hr.marker p this.1 hl
  | @working inv past ahead known deeds underway _ =>
    rcases underway.mem_markers ⟨hp, hl.isMarker⟩ with hp | ⟨t, a, m, hd, rfl⟩
    · exact hr.marker p hp.1 hl
    · obtain ⟨task, ht, hd⟩ := (Task.mem_itinerary hs.names).1 (deeds ▸ hd)
      obtain ⟨rfl, ha⟩ := (task.execute_mem_deeds _).1 hd
      have hname : task.name ≠ "" := fun he =>
        (nameFault?_eq_none_iff.1 (hs.valid task ht)).1 (by rw [he]; rfl)
      have hsum := Task.isChecksum_of_mem_checksums (Task.sum_mem_of_mem_due ha)
      cases m with
      | success => exact ⟨_, Inventory.markerOfPath_path hname hsum⟩
      | failure => exact absurd hl (Files.not_isListed_failure _ _)

theorem History.readable (h : History root part fs₀ runs fs) (hr : fs₀.Readable root)
    (hs : ∀ run ∈ runs, Submittable run.tasks) : fs.Readable root := by
  induction h with
  | nil => exact hr
  | snoc before last ih =>
    rw [List.forall_mem_append, List.forall_mem_singleton] at hs
    have hcourse := last.course
    obtain ⟨rfl, -⟩ := last
    exact hcourse.readable hs.2 (ih hs.1)

/-- No history makes infinitely many markers. -/
theorem History.finite_markers (h : History root part fs₀ runs fs) (hfin : fs₀.markers.Finite) :
    fs.markers.Finite := by
  induction h with
  | nil => exact hfin
  | @snoc runs run fs before last ih =>
    obtain ⟨-, hgoes⟩ := last
    exact hgoes.invariant (fun hw => hw.finite_markers) ih

/-! ### There always is such a run -/

/-- A run comes to a good end on a host whose cache holds finitely many markers and nothing else, if
all goes well. -/
theorem exists_goes_provision (r : Runner) (part : Failing) (tasks : List Task)
    (hroot : Cache.Legible r.settings.cacheRoot) (hr : fs.Readable r.settings.cacheRoot)
    (hfin : fs.markers.Finite) : ∃ ms c fs', (∀ m ∈ ms, m.exchange.Fine) ∧
      (r.provision tasks).Goes (Allowed r.settings.cacheRoot part) fs ms (.done (.ok c)) fs' := by
  obtain ⟨ms, result, fs', hgoes, hfine⟩ :=
    Script.exists_goes_fine r.settings.cacheRoot part hfin (r.provision tasks)
  obtain ⟨c, rfl⟩ := goes_provision_fine hgoes hfine (hr.listable hroot)
  exact ⟨ms, c, fs', hfine, hgoes⟩

/-- Whatever a host has seen, its next run can come to a good end. -/
theorem History.exists_fine (h : History root part fs₀ runs fs)
    (hs : ∀ run ∈ runs, Submittable run.tasks) (hr : fs₀.Readable root)
    (hfin : fs₀.markers.Finite) {r : Runner} (hcache : r.settings.cacheRoot = root)
    (hroot : Cache.Legible root) (tasks : List Task) :
    ∃ run fs', run.runner = r ∧ run.tasks = tasks ∧ History root part fs₀ (runs ++ [run]) fs' ∧
      ∃ c, run.rest = .done (.ok c) := by
  have hreadable := h.readable hr hs
  have hfinite := h.finite_markers hfin
  subst hcache
  obtain ⟨ms, c, fs', -, hgoes⟩ := exists_goes_provision r part tasks hroot hreadable hfinite
  exact ⟨⟨r, tasks, fs, ms, .done (.ok c)⟩, fs', rfl, rfl, .snoc h ⟨rfl, hgoes⟩, c, rfl⟩

/-- Two lists of tasks can be brought to a good end one after the other. -/
theorem History.exists_two (part : Failing) {r : Runner} (hcache : r.settings.cacheRoot = root)
    (hroot : Cache.Legible root) {tasks₁ : List Task} (hs : Submittable tasks₁)
    (tasks₂ : List Task) : ∃ run₁ run₂ fs, run₁.tasks = tasks₁ ∧ run₂.tasks = tasks₂ ∧
      run₁.runner = r ∧ History root part ∅ ([run₁] ++ [run₂]) fs ∧
        (∃ c, run₁.rest = .done (.ok c)) ∧ ∃ c, run₂.rest = .done (.ok c) := by
  have h : History root part ∅ [] ∅ := .nil
  obtain ⟨run₁, fs₁, hr₁, rfl, h₁, hc₁⟩ := h.exists_fine (by simp) (.empty root)
    Files.finite_markers_empty hcache hroot tasks₁
  obtain ⟨run₂, fs₂, -, rfl, h₂, hc₂⟩ := h₁.exists_fine (by simpa using hs) (.empty root)
    Files.finite_markers_empty hcache hroot tasks₂
  exact ⟨run₁, run₂, fs₂, rfl, rfl, hr₁, h₂, hc₁, hc₂⟩

/-! ### An example -/

/-- A task of two commands. -/
def Task.greeting : Task :=
  ⟨"greeting", [⟨"echo hello; ", "echo hello; "⟩, ⟨"echo world", "echo world"⟩]⟩

/-- The same with both commands in one. -/
def Task.greetingAtOnce : Task :=
  ⟨"greeting", [⟨"echo hello; echo world", "echo hello; echo world"⟩]⟩

theorem Task.submittable_greeting : Submittable [greeting] :=
  (Compiled.singleton (by decide) (by decide)).submittable

theorem Task.submittable_greetingAtOnce : Submittable [greetingAtOnce] :=
  (Compiled.singleton (by decide) (by decide)).submittable

theorem Task.collisionFree_greetings : CollisionFree [greeting, greetingAtOnce] := by
  decide +kernel

/-- The checksum of the one command is that of the second of two. -/
theorem Task.checksums_greetingAtOnce_subset : greetingAtOnce.checksums ⊆ greeting.checksums := by
  rw [checksums_eq, checksums_eq]
  exact List.map_subset _ (by decide)

/-- A configuration with that task. -/
def Config.greetings : Config where
  version := "1"
  name := "greetings"
  provision := [{ task? := some "greeting",
                  commands? := some [.shell "echo hello; ", .shell "echo world"] }]

theorem Config.compileWith_greetings : greetings.compileWith 8 = .ok [.greeting] := by
  decide +kernel

/-- Who provisions root's own host, with all settings as they are by default. -/
def Runner.byDefault : Runner := ⟨"root", {}⟩

theorem Runner.legible_byDefault : Cache.Legible byDefault.settings.cacheRoot := by
  refine ⟨by decide, fun c hc => ?_⟩
  obtain rfl : '/' = c := Option.some.inj hc
  rfl

end Provisioning
