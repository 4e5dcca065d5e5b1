import Provisioning.Proofs.Run.Ownership

/-!
# Tasks in another order

What a run does for a task depends on what the host listed of that task, and on nothing that the run
does for the tasks before.  As tasks own different files, a run in which nothing fails leaves the
same markers and counts the same, whatever the order of the tasks.

* `Task.after_ops_perm` : what tasks do to the markers may be done task by task in any order;
* `RunCourse.markers_eq` : a run that came to a good end has done just that;
* `Runner.provision_perm` : runs for the same tasks in two orders;
* `Runner.tasks_own_directories` : tasks own their directories, and all that follows from it.
-/

namespace Provisioning

variable {r : Runner} {part : Failing} {root : String} {fs fs' fs₁ fs₂ : Files}
  {ms ms' : List (Moment Files)} {tasks tasks' : List Task} {known : List String}

/-! ### What tasks do to the markers -/

/-- What is done to the markers for a task of which some checksums are known, if all goes well. -/
def Task.ops (root : String) (known : List String) (task : Task) : List FileOp :=
  (task.deeds known).flatMap (Deed.ops root)

namespace Task

/-- Only markers of the task are concerned. -/
theorem path_of_mem_ops {task : Task} {op : FileOp} (h : op ∈ task.ops root known) :
    ∃ m s, op.path = Mark.path m (Cache.taskDir root task.name) s := by
  obtain ⟨d, hd, hop⟩ := List.mem_flatMap.1 h
  obtain ⟨m, s, hpath⟩ := Deed.path_of_mem_ops root (.inl hop)
  rw [task_of_mem_deeds hd] at hpath
  exact ⟨m, s, hpath⟩

theorem flatMap_ops_itinerary (hn : (tasks.map Task.name).Nodup) (inv : Inventory) :
    (itinerary tasks inv).flatMap (Deed.ops root) =
      tasks.flatMap fun t => t.ops root (inv.sums t.name) := by
  rw [itinerary_eq hn, List.flatMap_assoc]
  rfl

/-- What is done for tasks with names of their own may be done task by task in any order. -/
theorem after_ops_perm (h : tasks.Perm tasks') (hn : (tasks.map Task.name).Nodup)
    (hv : ∀ t ∈ tasks, Slashless t.name) (inv : Inventory) (fs : Files) :
    fs.after (tasks.flatMap fun t => t.ops root (inv.sums t.name)) =
      fs.after (tasks'.flatMap fun t => t.ops root (inv.sums t.name)) := by
  refine Files.after_flatMap_perm h (fun t ht t' ht' hne op hop op' hop' he => ?_) fs
  obtain ⟨m, s, hpath⟩ := path_of_mem_ops hop
  obtain ⟨m', s', hpath'⟩ := path_of_mem_ops hop'
  rw [hpath, hpath'] at he
  -- markers with the same path are of the same task
  have hname := ((Mark.path_inj (hv t ht) (hv t' ht')).1 he).2.1
  exact hne (List.inj_on_of_nodup_map hn ht ht' hname)

end Task

/-- All that is known of the same files leads to the same deeds. -/
theorem Known.deeds_eq {inv inv' : Inventory} (h : Known root fs inv) (h' : Known root fs inv')
    (task : Task) : task.deeds (inv.sums task.name) = task.deeds (inv'.sums task.name) := by
  rw [Task.deeds, Task.deeds, h.ofTask_eq h']

theorem Plan.total_perm {plans plans' : List Plan} (h : plans.Perm plans') :
    total plans = total plans' := by
  rw [total, total, (h.map toExecute).sum_nat, (h.map cached).sum_nat,
    (h.map fun p => p.stale.length).sum_nat]

/-! ### Runs in two orders -/

/-- Who has done all has done all operations. -/
theorem Underway.markers_eq {past : List Deed} (h : Underway r part past [] fs ms fs') :
    fs'.markers = fs.markers.after (past.flatMap (Deed.ops r.settings.cacheRoot)) := by
  obtain ⟨did, as, bs, hmarkers, -, -, hhalf⟩ := h.halfway
  cases hhalf
  exact hmarkers

/-- What a run that came to a good end has done to the markers, and what it counts. -/
theorem RunCourse.markers_eq {ends : Counts → Prop} (h : RunCourse r part tasks fs ms fs' ends)
    {c : Counts} (hc : ends c) (hn : (tasks.map Task.name).Nodup) :
    ∃ inv, Known r.settings.cacheRoot fs inv ∧
      fs'.markers = fs.markers.after
        (tasks.flatMap fun t => t.ops r.settings.cacheRoot (inv.sums t.name)) ∧
      c = Plan.total (tasks.map fun t => Plan.ofTask t (inv.sums t.name)) := by
  obtain ⟨inv, hknown, rfl, hunderway⟩ := h.completed hc
  refine ⟨inv, hknown, ?_, Plan.tally_eq_total hn inv⟩
  rw [hunderway.markers_eq, Task.flatMap_ops_itinerary hn]

namespace Runner

variable {res res' : Except RunError Counts}

/-- If a run comes to a good end so does one for the same tasks in another order in which nothing
fails. -/
theorem provision_perm_ok (hn : (tasks.map Task.name).Nodup) (hv : ∀ t ∈ tasks, Slashless t.name)
    (hperm : tasks.Perm tasks') {c : Counts}
    (h : (r.provision tasks).Goes (Allowed r.settings.cacheRoot part) fs ms (.done (.ok c)) fs₁)
    (h' : (r.provision tasks').Goes (Allowed r.settings.cacheRoot part) fs ms' (.done res') fs₂)
    (hfine' : ∀ m ∈ ms', m.exchange.Fine) : res' = .ok c ∧ fs₂.markers = fs₁.markers := by
  have hn' : (tasks'.map Task.name).Nodup := (hperm.map Task.name).nodup_iff.1 hn
  obtain ⟨inv, hknown, hmarkers, rfl⟩ := (goes_provision h).markers_eq rfl hn
  obtain ⟨c', rfl⟩ := goes_provision_fine h' hfine' hknown.listable
  obtain ⟨inv', hknown', hmarkers', rfl⟩ := (goes_provision h').markers_eq rfl hn'
  -- both runs found the same, though perhaps listed in another order
  have hops : (tasks'.flatMap fun t => t.ops r.settings.cacheRoot (inv'.sums t.name)) =
      tasks'.flatMap fun t => t.ops r.settings.cacheRoot (inv.sums t.name) :=
    List.flatMap_congr fun t _ => by rw [Task.ops, Task.ops, hknown.deeds_eq hknown' t]
  have hplans : (tasks'.map fun t => Plan.ofTask t (inv'.sums t.name)) =
      tasks'.map fun t => Plan.ofTask t (inv.sums t.name) :=
    List.map_congr_left fun t _ => (hknown.ofTask_eq hknown' t).symm
  refine ⟨?_, ?_⟩
  · rw [hplans, Plan.total_perm (hperm.map _)]
  · rw [hmarkers, hmarkers', hops, Task.after_ops_perm hperm hn hv]

/-- A run in which nothing fails, but that comes to no good end, leaves all markers. -/
theorem markers_of_refused
    (h : (r.provision tasks).Goes (Allowed r.settings.cacheRoot part) fs ms (.done res) fs₁)
    (hfine : ∀ m ∈ ms, m.exchange.Fine) (hres : ∀ c, res ≠ .ok c) : fs₁.markers = fs.markers := by
  cases goes_provision h with
  | idle h _ => exact h.markers
  | working known _ _ _ =>
    obtain ⟨c, hc⟩ := goes_provision_fine h hfine known.listable
    exact absurd hc (hres c)

/-- Runs for the same tasks in two orders leave the same markers and count the same if nothing
fails. -/
theorem provision_perm (hn : (tasks.map Task.name).Nodup) (hv : ∀ t ∈ tasks, Slashless t.name)
    (hperm : tasks.Perm tasks')
    (h : (r.provision tasks).Goes (Allowed r.settings.cacheRoot part) fs ms (.done res) fs₁)
    (h' : (r.provision tasks').Goes (Allowed r.settings.cacheRoot part) fs ms' (.done res') fs₂)
    (hfine : ∀ m ∈ ms, m.exchange.Fine) (hfine' : ∀ m ∈ ms', m.exchange.Fine) :
    fs₁.markers = fs₂.markers ∧ ∀ c, res = .ok c ↔ res' = .ok c := by
  have hn' : (tasks'.map Task.name).Nodup := (hperm.map Task.name).nodup_iff.1 hn
  have hv' : ∀ t ∈ tasks', Slashless t.name := fun t ht => hv t (hperm.mem_iff.2 ht)
  have hiff : ∀ c, res = .ok c ↔ res' = .ok c := by
    intro c
    constructor
    · rintro rfl
      exact (provision_perm_ok hn hv hperm h h' hfine').1
    · rintro rfl
      exact (provision_perm_ok hn' hv' hperm.symm h' h hfine).1
  refine ⟨?_, hiff⟩
  by_cases hok : ∃ c, res = .ok c
  · obtain ⟨c, rfl⟩ := hok
    exact (provision_perm_ok hn hv hperm h h' hfine').2.symm
  · -- the cache holds what is no marker, and both runs end before the first task
    have hres : ∀ c, res ≠ .ok c := fun c hc => hok ⟨c, hc⟩
    have hres' : ∀ c, res' ≠ .ok c := fun c hc => hok ⟨c, (hiff c).2 hc⟩
    rw [markers_of_refused h hfine hres, markers_of_refused h' hfine' hres']

/-- Tasks with names of their own own their directories and nothing else.

Whatever an inventory tells, a task runs its commands and otherwise touches nothing below the root
but its directory and what is kept there of its commands and of the checksums listed of it, which
lies right in the directory; and what the inventory tells of other tasks is not used up.  No path
belongs to two tasks, even if the name of one is the beginning of that of the other.

In a whole run no script but those of commands touches a marker of a task that is not in the list.
Where commands leave the cache alone, such markers, and all else below the root that no task of the
list owns, are as before, wherever the run is cut off and whatever fails.  If nothing fails, runs
for the tasks in any two orders that begin with the same files leave the same markers, and if one
comes to a good end so does the other, with the same counts. -/
theorem tasks_own_directories (r : Runner) {tasks : List Task}
    (hn : (tasks.map Task.name).Nodup) (hv : ∀ t ∈ tasks, nameFault? t.name = none) :
    (∀ task ∈ tasks, ∀ inv : Inventory,
      (r.runTask task inv).Only (Exchange.KeepsTo r task (inv.sums task.name)) ∧
      (∀ s, Slashless s → ∀ p ∈ Cache.entries (r.dirOf task.name) s,
        Cache.Owns r.settings.cacheRoot task.name p) ∧
      ∀ xs result left, (r.runTask task inv).Yields xs (result, left) →
        ∀ t, t ≠ task.name → left.sums t = inv.sums t) ∧
    (∀ task ∈ tasks, ∀ task' ∈ tasks, ∀ p, Cache.Owns r.settings.cacheRoot task.name p →
      Cache.Owns r.settings.cacheRoot task'.name p → task = task') ∧
    (∀ t ∉ tasks.map Task.name, ∀ m s, Slashless s →
      (r.provision tasks).Only fun x =>
        (∃ task ∈ tasks, ∃ a ∈ task.actions, x.Runs r a) ∨
          Mark.path m (r.dirOf t) s ∉ x.touched) ∧
    (∀ part fs ms rest fs', (r.provision tasks).Goes (Allowed r.settings.cacheRoot part)
        fs ms rest fs' →
      (∀ p, Cache.Under r.settings.cacheRoot p →
        (∀ task ∈ tasks, ¬ Cache.Owns r.settings.cacheRoot task.name p) → (p ∈ fs' ↔ p ∈ fs)) ∧
      ∀ t ∉ tasks.map Task.name, ∀ m,
        fs'.sums r.settings.cacheRoot m t = fs.sums r.settings.cacheRoot m t) ∧
    ∀ tasks', tasks.Perm tasks' → ∀ part fs ms ms' result result' fs₁ fs₂,
      (r.provision tasks).Goes (Allowed r.settings.cacheRoot part) fs ms (.done result) fs₁ →
      (r.provision tasks').Goes (Allowed r.settings.cacheRoot part) fs ms' (.done result') fs₂ →
      (∀ m ∈ ms ++ ms', m.exchange.Fine) →
        fs₁.markers = fs₂.markers ∧ ∀ c, result = .ok c ↔ result' = .ok c := by
  have hslash : ∀ t ∈ tasks, Slashless t.name := fun t ht => slashless_of_nameFault (hv t ht)
  -- the markers of a task that is not in the list belong to none that is
  have hforeign : ∀ t ∉ tasks.map Task.name, ∀ m s, Slashless s → ∀ task ∈ tasks,
      ¬ Cache.Owns r.settings.cacheRoot task.name (Mark.path m (r.dirOf t) s) := by
    intro t ht m s hs task htask howns
    obtain rfl := howns.eq_of_path (hslash task htask) hs
    exact ht (List.mem_map_of_mem htask)
  refine ⟨fun task htask inv => ⟨keepsTo_runTask (hslash task htask) inv, ?_, ?_⟩, ?_, ?_, ?_, ?_⟩
  · exact fun s hs p hp => Cache.owns_of_mem_entries hs hp
  · exact fun xs result left h t ht => sums_of_runTask h ht
  · intro task htask task' htask' p h h'
    exact List.inj_on_of_nodup_map hn htask htask'
      (h.unique (hslash task htask) (hslash task' htask') h')
  · intro t ht m s hs
    refine (keepsTo_provision hslash).mono fun x hx => ?_
    rcases hx with hopens | ⟨task, htask, known, hknown, hkeeps⟩
    · exact .inr (path_not_mem_touched_of_opens hopens m t s)
    · rcases hkeeps.owns hknown with hruns | howns
      · exact .inl ⟨task, htask, hruns⟩
      · exact .inr fun hp => hforeign t ht m s hs task htask
          (howns _ hp (Cache.under_path m _ t s))
  · intro part fs ms rest fs' h
    have hunowned := fun p hunder hp => h.unowned hslash (p := p) hunder hp
    refine ⟨hunowned, fun t ht m => ?_⟩
    ext s
    exact and_congr_right fun hs =>
      hunowned _ (Cache.under_path m _ t s) (hforeign t ht m s hs)
  · intro tasks' hperm part fs ms ms' result result' fs₁ fs₂ h h' hfine
    rw [List.forall_mem_append] at hfine
    exact provision_perm hn hslash hperm h h' hfine.1 hfine.2

end Runner

/-- Two tasks, the name of one of which is the beginning of that of the other. -/
def Task.dotted : List Task := [⟨"a", [⟨"echo a", "echo a"⟩]⟩, ⟨"a.b", [⟨"echo b", "echo b"⟩]⟩]

/-- Both orders of these two on a host that has seen nothing before. -/
theorem Runner.dotted_own_directories :
    (Task.dotted.map Task.name).Nodup ∧ (∀ t ∈ Task.dotted, nameFault? t.name = none) ∧
      ∃ ms ms' c fs₁ fs₂,
        (byDefault.provision Task.dotted).Goes (Allowed byDefault.settings.cacheRoot .torn)
          ∅ ms (.done (.ok c)) fs₁ ∧
        (byDefault.provision Task.dotted.reverse).Goes
          (Allowed byDefault.settings.cacheRoot .torn) ∅ ms' (.done (.ok c)) fs₂ ∧
        fs₁.markers = fs₂.markers := by
  have hn : (Task.dotted.map Task.name).Nodup := by decide
  have hv : ∀ t ∈ Task.dotted, nameFault? t.name = none := by decide
  obtain ⟨ms, c, fs₁, hfine, h⟩ := exists_goes_provision byDefault .torn Task.dotted
    legible_byDefault (.empty _) Files.finite_markers_empty
  obtain ⟨ms', c', fs₂, hfine', h'⟩ := exists_goes_provision byDefault .torn Task.dotted.reverse
    legible_byDefault (.empty _) Files.finite_markers_empty
  obtain ⟨-, -, -, -, hperm⟩ := byDefault.tasks_own_directories hn hv
  obtain ⟨hmarkers, hresult⟩ := hperm _ (List.reverse_perm _).symm .torn ∅ ms ms' _ _ fs₁ fs₂ h h'
    (List.forall_mem_append.2 ⟨hfine, hfine'⟩)
  obtain rfl : c' = c := Except.ok.inj ((hresult c).1 rfl)
  exact ⟨hn, hv, ms, ms', c', fs₁, fs₂, h, h', hmarkers⟩

end Provisioning
