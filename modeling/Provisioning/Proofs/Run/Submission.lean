import Provisioning.Proofs.Package.Compile
import Provisioning.Proofs.Run.Markers

/-!
# Runs of tasks that may be submitted

Where tasks have names of their own, the deeds of a run fall apart by tasks: the deeds done for one
task are the first of its own (`Task.exists_take_deeds`), and its markers depend on how many they
are (`Known.exists_stage`).
-/

namespace Provisioning

/-- A valid name is a part of a path by itself. -/
theorem slashless_of_nameFault {name : String} (h : nameFault? name = none) : Slashless name :=
  (nameFault?_eq_none_iff.1 h).2.2.1

theorem Task.slashless_checksum {t : Task} {s : String} (h : s ∈ t.checksums) : Slashless s :=
  Inventory.slashless_of_isChecksum (isChecksum_of_mem_checksums h)

namespace Task

variable {task : Task} {tasks : List Task} {known : List String} {inv : Inventory}

theorem task_of_mem_deeds {d : Deed} (h : d ∈ task.deeds known) : d.task = task.name := by
  rw [deeds_eq, firstDeeds, List.mem_append, List.mem_cons, List.mem_cons] at h
  rcases h with (rfl | h) | rfl | h
  · rfl
  · obtain ⟨a, -, rfl⟩ := List.mem_map.1 h
    rfl
  · rfl
  · obtain ⟨a, -, rfl⟩ := List.mem_map.1 h
    rfl

theorem sum_mem_of_mem_due {a : PlannedAction} (h : a ∈ (Plan.ofTask task known).due) :
    a.sum ∈ task.checksums := by
  rw [← Plan.map_sum_actions task known]
  exact List.mem_map_of_mem (List.mem_filter.1 h).1

theorem proper_of_mem_deeds (hname : Slashless task.name) {d : Deed} (h : d ∈ task.deeds known) :
    d.Proper := by
  have ht := task_of_mem_deeds h
  cases d with
  | execute t a =>
    obtain rfl : t = task.name := ht
    exact ⟨hname, slashless_checksum (sum_mem_of_mem_due ((task.execute_mem_deeds known).1 h).2)⟩
  | makeDir t | skip t _ | sweep t _ =>
    obtain rfl : t = task.name := ht
    exact hname

theorem mem_itinerary (hn : (tasks.map Task.name).Nodup) {d : Deed} :
    d ∈ itinerary tasks inv ↔ ∃ t ∈ tasks, d ∈ t.deeds (inv.sums t.name) := by
  rw [itinerary_eq hn, List.mem_flatMap]

theorem proper_of_mem_itinerary (h : Submittable tasks) {d : Deed}
    (hd : d ∈ itinerary tasks inv) : d.Proper := by
  obtain ⟨t, ht, hd⟩ := (mem_itinerary h.names).1 hd
  exact proper_of_mem_deeds (slashless_of_nameFault (h.valid t ht)) hd

/-- Among the deeds of a run those for one task are its own. -/
theorem filter_itinerary (hn : (tasks.map Task.name).Nodup) (ht : task ∈ tasks) :
    (itinerary tasks inv).filter (·.task = task.name) = task.deeds (inv.sums task.name) := by
  rw [itinerary_eq hn, List.filter_flatMap]
  induction tasks with
  | nil => simp at ht
  | cons t ts ih =>
    rw [List.map_cons, List.nodup_cons] at hn
    have hall : ∀ t' : Task, t'.name = task.name →
        (t'.deeds (inv.sums t'.name)).filter (·.task = task.name) = t'.deeds (inv.sums t'.name) :=
      fun t' he => List.filter_eq_self.2 fun d hd => by simp [task_of_mem_deeds hd, he]
    have hnone : ∀ t' : Task, t'.name ≠ task.name →
        (t'.deeds (inv.sums t'.name)).filter (·.task = task.name) = [] :=
      fun t' he => List.filter_eq_nil_iff.2 fun d hd => by simp [task_of_mem_deeds hd, he]
    rw [List.flatMap_cons]
    rcases List.mem_cons.1 ht with rfl | ht
    · rw [hall _ rfl, List.flatMap_eq_nil_iff.2, List.append_nil]
      intro t' ht'
      exact hnone t' fun he => hn.1 (he ▸ List.mem_map_of_mem ht')
    · rw [hnone t fun he => hn.1 (he ▸ List.mem_map_of_mem ht), ih hn.2 ht, List.nil_append]

/-- A deed for a task is one of its own. -/
theorem mem_deeds_of_mem_itinerary (hn : (tasks.map Task.name).Nodup) (ht : task ∈ tasks)
    {d : Deed} (hd : d ∈ itinerary tasks inv) (htask : d.task = task.name) :
    d ∈ task.deeds (inv.sums task.name) := by
  rw [← filter_itinerary hn ht]
  exact List.mem_filter.2 ⟨hd, by simpa using htask⟩

theorem filter_itinerary_of_not_mem (hn : (tasks.map Task.name).Nodup) {t : String}
    (ht : t ∉ tasks.map Task.name) : (itinerary tasks inv).filter (·.task = t) = [] := by
  refine List.filter_eq_nil_iff.2 fun d hd => ?_
  obtain ⟨t', ht', hd⟩ := (mem_itinerary hn).1 hd
  rw [decide_eq_true_eq, task_of_mem_deeds hd]
  intro he
  exact ht (he ▸ List.mem_map_of_mem ht')

/-- The deeds done for a task are the first of its own. -/
theorem exists_take_deeds (hn : (tasks.map Task.name).Nodup) (ht : task ∈ tasks) {done : List Deed}
    (hdone : done <+: itinerary tasks inv) :
    ∃ l ≤ task.actions.length + 2,
      done.filter (·.task = task.name) = (task.deeds (inv.sums task.name)).take l := by
  have hfilter := hdone.filter (·.task = task.name)
  rw [filter_itinerary hn ht] at hfilter
  refine ⟨_, ?_, List.prefix_iff_eq_take.1 hfilter⟩
  have := hfilter.length_le
  rw [length_deeds] at this
  exact this

/-- What is next for a task is the next of its own deeds. -/
theorem getElem?_deeds_of_head? (hn : (tasks.map Task.name).Nodup) (ht : task ∈ tasks)
    {done rest : List Deed} (hdeeds : itinerary tasks inv = done ++ rest) {l : Nat}
    (hdone : done.filter (·.task = task.name) = (task.deeds (inv.sums task.name)).take l)
    {d : Deed} (hd : rest.head? = some d) (htask : d.task = task.name) :
    (task.deeds (inv.sums task.name))[l]? = some d := by
  obtain ⟨rest, rfl⟩ := List.head?_eq_some_iff.1 hd
  have hfilter : (itinerary tasks inv).filter (·.task = task.name) =
      task.deeds (inv.sums task.name) := filter_itinerary hn ht
  rw [hdeeds, List.filter_append, hdone, List.filter_cons_of_pos (by simpa using htask)] at hfilter
  have hdrop := List.append_cancel_left
    (hfilter.trans (List.take_append_drop l (task.deeds (inv.sums task.name))).symm)
  rw [← List.head?_drop, ← hdrop]
  rfl

end Task

variable {root : String} {fs : Files} {inv : Inventory} {tasks : List Task}

/-- An inventory knows of every task the checksums under which it has markers of success. -/
theorem Known.mem_sums (h : Known root fs inv) (hb : fs.Below root) (t s : String) :
    s ∈ inv.sums t ↔ s ∈ fs.sums root .success t := by
  obtain ⟨listing, hl, hinv⟩ := h
  exact Inventory.mem_sums_of_ofListing hb hl hinv t s

/-- After some deeds a submitted task has the markers of a stage. -/
theorem Known.exists_stage (h : Known root fs inv) (hb : fs.Below root)
    (hn : (tasks.map Task.name).Nodup) {task : Task} (ht : task ∈ tasks) {done : List Deed}
    (hdone : done <+: Task.itinerary tasks inv) :
    ∃ l ≤ task.actions.length + 2,
      done.filter (·.task = task.name) = (task.deeds (inv.sums task.name)).take l ∧
      reached root fs done task.name =
        task.stage (inv.sums task.name) (fun m => fs.sums root m task.name) l := by
  obtain ⟨l, hl, hfilter⟩ := Task.exists_take_deeds hn ht hdone
  refine ⟨l, hl, hfilter, ?_⟩
  rw [reached, hfilter]
  exact Task.foldl_record task _ (h.mem_sums hb task.name) l

/-- A task that is not submitted keeps its markers. -/
theorem reached_of_not_mem (hn : (tasks.map Task.name).Nodup) {t : String}
    (ht : t ∉ tasks.map Task.name) {done : List Deed}
    (hdone : done <+: Task.itinerary tasks inv) :
    reached root fs done t = fun m => fs.sums root m t := by
  have hfilter := hdone.filter (·.task = t)
  rw [Task.filter_itinerary_of_not_mem hn ht, List.prefix_nil] at hfilter
  rw [reached, hfilter]
  rfl

end Provisioning
