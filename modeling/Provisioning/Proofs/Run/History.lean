import Mathlib.Data.List.Induction
import Provisioning.Proofs.Run.Submission

/-!
# Histories of a host

A host sees one run after another, each with tasks of its own, and any of them may be cut off
anywhere (`History`).  A run that is cut off is a run, so whatever holds at the end of every
history holds at every moment of it (`History.upto`).

* `RunCourse.files_below` : no run puts a marker where the listing could not show it;
* `History.files_below` : so it is in every history.
-/

namespace Provisioning

/-- A run on a host, up to where it ended or was cut off. -/
structure HostRun where
  /-- Who runs. -/
  runner : Runner
  /-- What is to be done. -/
  tasks : List Task
  /-- The files of the host before the run. -/
  start : Files
  /-- What passed. -/
  moments : List (Moment Files)
  /-- What is left to do. -/
  rest : Script (Except RunError Counts)

/-- Whether a run on a host that keeps its cache below `root` may be so, and leave `fs`. -/
structure HostRun.Leaves (run : HostRun) (root : String) (part : Failing) (fs : Files) : Prop where
  /-- The cache is where the host keeps it. -/
  cacheRoot : run.runner.settings.cacheRoot = root
  /-- This is a course of the run. -/
  goes : (run.runner.provision run.tasks).Goes (Allowed root part) run.start run.moments run.rest fs

/-- The runs that a host has seen since it had the files `fs₀`, and the files that it has now. -/
inductive History (root : String) (part : Failing) (fs₀ : Files) : List HostRun → Files → Prop
  | nil : History root part fs₀ [] fs₀
  | snoc {runs : List HostRun} {run : HostRun} {fs : Files}
      (before : History root part fs₀ runs run.start) (last : run.Leaves root part fs) :
      History root part fs₀ (runs ++ [run]) fs

/-- All tasks that were submitted. -/
def submitted (runs : List HostRun) : List Task := runs.flatMap HostRun.tasks

theorem submitted_append (a b : List HostRun) : submitted (a ++ b) = submitted a ++ submitted b :=
  List.flatMap_append

variable {root : String} {part : Failing} {fs₀ fs : Files} {runs : List HostRun} {run : HostRun}

/-- The course of a run in a history. -/
theorem HostRun.Leaves.course (h : run.Leaves root part fs) :
    RunCourse run.runner part run.tasks run.start run.moments fs fun c =>
      run.rest = .done (.ok c) := by
  obtain ⟨rfl, hgoes⟩ := h
  exact goes_provision hgoes

/-- A run that is cut off after one of its moments. -/
theorem HostRun.Leaves.upto (h : run.Leaves root part fs) {ms ms' : List (Moment Files)}
    {m : Moment Files} (hm : run.moments = ms ++ m :: ms') :
    ∃ rest, HostRun.Leaves { run with moments := ms ++ [m], rest := rest } root part m.after := by
  obtain ⟨hroot, hgoes⟩ := h
  rw [hm] at hgoes
  obtain ⟨rest, h₁⟩ := hgoes.upto
  exact ⟨rest, hroot, h₁⟩

namespace History

theorem snoc_inv (h : History root part fs₀ (runs ++ [run]) fs) :
    History root part fs₀ runs run.start ∧ run.Leaves root part fs := by
  generalize hruns : runs ++ [run] = runs' at h
  cases h with
  | nil => simp at hruns
  | snoc before last =>
    obtain ⟨rfl, hrun⟩ := List.append_inj' hruns rfl
    obtain rfl := List.singleton_inj.1 hrun
    exact ⟨before, last⟩

/-- The history of one run. -/
theorem singleton_iff :
    History root part fs₀ [run] fs ↔ run.start = fs₀ ∧ run.Leaves root part fs := by
  constructor
  · intro h
    rw [← List.nil_append [run]] at h
    obtain ⟨before, last⟩ := h.snoc_inv
    refine ⟨?_, last⟩
    generalize hruns : ([] : List HostRun) = runs' at before
    cases before with
    | nil => rfl
    | snoc => simp at hruns
  · rintro ⟨rfl, h⟩
    exact .snoc .nil h

/-- What a host has seen up to one of its runs is a history. -/
theorem upto_run {later : List HostRun} (h : History root part fs₀ (runs ++ later) fs) :
    ∃ fs', History root part fs₀ runs fs' := by
  induction later using List.reverseRecOn generalizing fs with
  | nil => exact ⟨fs, by simpa using h⟩
  | append_singleton later run ih =>
    rw [← List.append_assoc] at h
    exact ih h.snoc_inv.1

/-- A history up to one of the moments of its last run. -/
theorem upto (h : History root part fs₀ (runs ++ [run]) fs) {m : Moment Files}
    (hm : m ∈ run.moments) :
    ∃ ms rest, History root part fs₀ (runs ++ [{ run with moments := ms, rest := rest }])
      m.after := by
  obtain ⟨before, last⟩ := h.snoc_inv
  obtain ⟨ms, ms', hms⟩ := List.append_of_mem hm
  obtain ⟨rest, hlast⟩ := last.upto hms
  exact ⟨_, rest, .snoc before hlast⟩

end History

/-! ### Where markers lie -/

/-- A deed makes no file but markers of its command. -/
theorem Deed.exists_of_write_mem {d : Deed} {p : String}
    (h : .write p ∈ d.ops root ∨ .write p ∈ d.lapse root) :
    ∃ t a m, d = .execute t a ∧ p = Mark.path m (Cache.taskDir root t) a.sum := by
  cases d with
  | makeDir | skip | sweep => simp [ops, lapse] at h
  | execute t a =>
    simp only [ops, lapse, List.mem_cons, FileOp.write.injEq, List.not_mem_nil, reduceCtorEq,
      or_false] at h
    rcases h with rfl | rfl
    · exact ⟨t, a, .success, rfl, rfl⟩
    · exact ⟨t, a, .failure, rfl, rfl⟩

/-- A marker of success is made by the execution of its command. -/
theorem Deed.exists_execute_of_write_mem {d : Deed} {t s : String} (hd : Slashless d.task)
    (ht : Slashless t) (h : .write (Mark.success.path (Cache.taskDir root t) s) ∈ d.ops root ∨
      .write (Mark.success.path (Cache.taskDir root t) s) ∈ d.lapse root) :
    ∃ a, d = .execute t a ∧ a.sum = s := by
  obtain ⟨t', a, m, rfl, hpath⟩ := exists_of_write_mem h
  obtain ⟨-, rfl, rfl⟩ := (Mark.path_inj ht hd).1 hpath
  exact ⟨a, rfl, rfl⟩

theorem Deed.remove_not_mem_lapse {d : Deed} {p : String} : .remove p ∉ d.lapse root := by
  cases d <;> simp [lapse]

/-- A marker of success is deleted by a sweep of its task. -/
theorem Deed.exists_sweep_of_remove_mem {d : Deed} {t s : String} (hd : Slashless d.task)
    (ht : Slashless t) (h : .remove (Mark.success.path (Cache.taskDir root t) s) ∈ d.ops root ∨
      .remove (Mark.success.path (Cache.taskDir root t) s) ∈ d.lapse root) :
    ∃ stale, d = .sweep t stale ∧ s ∈ stale := by
  have h := h.resolve_right remove_not_mem_lapse
  cases d with
  | makeDir | skip => simp [ops] at h
  | execute t' a =>
    simp only [ops, List.mem_cons, reduceCtorEq, FileOp.remove.injEq, List.not_mem_nil,
      or_false, false_or] at h
    exact absurd ((Mark.path_inj ht hd).1 h).1 (by decide)
  | sweep t' stale =>
    obtain ⟨s', hs', he⟩ := List.mem_map.1 h
    obtain ⟨-, rfl, rfl⟩ := (Mark.path_inj hd ht).1 (FileOp.remove.inj he)
    exact ⟨stale, rfl, hs'⟩

/-- All markers are old, or markers of deeds. -/
theorem Underway.mem_markers {r : Runner} {past ahead : List Deed} {ms : List (Moment Files)}
    (h : Underway r part past ahead fs₀ ms fs) {p : String} (hp : p ∈ fs.markers) :
    p ∈ fs₀.markers ∨ ∃ t a m, Deed.execute t a ∈ past ++ ahead ∧
      p = Mark.path m (Cache.taskDir r.settings.cacheRoot t) a.sum := by
  obtain ⟨did, as, bs, hfs, -, -, hhalf⟩ := h.halfway
  rw [hfs] at hp
  rcases Files.mem_or_write_mem_of_mem_after hp with hp | hw
  · rcases Files.mem_or_write_mem_of_mem_after hp with hp | hw
    · exact .inl hp
    · obtain ⟨d, hd, hw⟩ := List.mem_flatMap.1 hw
      obtain ⟨t, a, m, rfl, hpath⟩ := Deed.exists_of_write_mem (.inl hw)
      exact .inr ⟨t, a, m, List.mem_append_left _ hd, hpath⟩
  · generalize hhead : ahead.head? = d? at hhalf
    cases hhalf with
    | idle | begun => simp at hw
    | @partly d _ _ _ hd =>
      obtain ⟨t, a, m, rfl, hpath⟩ := Deed.exists_of_write_mem (.inl ((part.sublist hd).subset hw))
      exact .inr ⟨t, a, m, List.mem_append_right _ (List.mem_of_head? hhead), hpath⟩
    | @lapsed d _ _ _ hd =>
      obtain ⟨t, a, m, rfl, hpath⟩ := Deed.exists_of_write_mem (.inr ((part.sublist hd).subset hw))
      exact .inr ⟨t, a, m, List.mem_append_right _ (List.mem_of_head? hhead), hpath⟩

/-- A valid name has no line feed. -/
theorem not_feed_of_nameFault {name : String} (h : nameFault? name = none) :
    '\n' ∉ name.toList := by
  intro hm
  have := (nameFault?_eq_none_iff.1 h).2.1 _ hm
  exact absurd this (by decide)

theorem Task.not_feed_checksum {t : Task} {s : String} (h : s ∈ t.checksums) :
    '\n' ∉ s.toList := by
  intro hm
  have hc := isChecksum_of_mem_checksums h
  rw [Inventory.isChecksum, Bool.and_eq_true, List.all_eq_true] at hc
  exact absurd (hc.2 _ hm) (by decide)

/-- The listing can show all that a run adds to the cache. -/
theorem RunCourse.files_below {r : Runner} {tasks : List Task} {ms : List (Moment Files)}
    {ends : Counts → Prop} (h : RunCourse r part tasks fs₀ ms fs ends) (hs : Submittable tasks)
    (hb : fs₀.Below r.settings.cacheRoot) : fs.Below r.settings.cacheRoot := by
  intro p hp hl
  have hold : p ∈ fs₀.markers →
      ∃ rest, p.toList = Cache.bareRoot r.settings.cacheRoot ++ '/' :: rest ∧ '\n' ∉ rest := by
    intro hp
    exact hb p hp.1 hl
  cases h with
  | idle h _ => exact hold (h.markers ▸ ⟨hp, hl.isMarker⟩)
  | working _ deeds underway _ =>
    rcases underway.mem_markers ⟨hp, hl.isMarker⟩ with hp | ⟨t, a, m, hd, rfl⟩
    · exact hold hp
    · rw [← deeds] at hd
      obtain ⟨task, htask, hd⟩ := (Task.mem_itinerary hs.names).1 hd
      obtain rfl : t = task.name := Task.task_of_mem_deeds hd
      refine ⟨task.name.toList ++ '/' :: (a.sum.toList ++ m.ending), ?_, ?_⟩
      · simp [Mark.toList_path, Cache.toList_taskDir]
      · have hname := not_feed_of_nameFault (hs.valid task htask)
        have hdue := ((task.execute_mem_deeds _).1 hd).2
        have hsum := Task.not_feed_checksum (Task.sum_mem_of_mem_due hdue)
        have hend : '\n' ∉ m.ending := by cases m <;> decide
        simp [hname, hsum, hend]

theorem Files.below_empty (root : String) : (∅ : Files).Below root := by
  intro p hp
  exact absurd hp (Set.notMem_empty p)

/-- The listing can show all that is in the cache after a history. -/
theorem History.files_below (h : History root part fs₀ runs fs) (hb : fs₀.Below root)
    (hs : ∀ run ∈ runs, Submittable run.tasks) : fs.Below root := by
  induction h with
  | nil => exact hb
  | snoc before last ih =>
    rw [List.forall_mem_append, List.forall_mem_singleton] at hs
    have hcourse := last.course
    obtain ⟨rfl, -⟩ := last
    exact hcourse.files_below hs.2 (ih hs.1)

end Provisioning
