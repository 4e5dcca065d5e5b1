import Provisioning.Proofs.Run.Completion

/-!
# What is skipped has been executed

Whatever comes of the scripts of all runs on a host, and wherever they are cut off, the markers of a
task go back to commands that were executed for it one after another (`Traced`).  Where a run skips
a command, the texts of the task up to that command are such texts, but their bounds may have been
elsewhere: a checksum is that of the texts one after another, without anything between them.

* `exists_groups` : texts that are cut in two ways, of which one has all the bounds of the other;
* `FixedBounds.of_eq` : a task that is never edited keeps its bounds;
* `Traced.of_course` : a run that may be cut off anywhere leaves markers that go back to executions;
* `History.skipped_executed` : what a run skips was executed in earlier ones.
-/

namespace Provisioning

/-! ### What was executed -/

/-- The call of a command of a task that was sent and ended well. -/
def Act.success? (t : String) : Act → Option Call
  | skipped _ _ => none
  | sent task _ call reply => if task = t ∧ reply.exit = .ok 0 then some call else none

/-- The calls of commands of a task that ended well in a run, in order. -/
def HostRun.successes (run : HostRun) (t : String) : List (Runner × Call) :=
  ((acts (exchanges run.moments)).filterMap (Act.success? t)).map fun call => (run.runner, call)

/-- Whether in some runs commands of these texts were executed for a task, in this order, and all
of them ended well. -/
def Executed (runs : List HostRun) (t : String) (texts : List String) : Prop :=
  ∃ es : List (Runner × String), es.map Prod.snd = texts ∧
    (es.map fun (r, text) => (r, (⟨r.wrap text, []⟩ : Call))).Sublist
      (runs.flatMap (HostRun.successes · t))

namespace Executed

variable {runs runs' : List HostRun} {t : String} {texts texts' : List String}

theorem nil (runs : List HostRun) (t : String) : Executed runs t [] :=
  ⟨[], rfl, List.nil_sublist _⟩

theorem of_prefix (h : Executed runs t texts) (hp : texts' <+: texts) :
    Executed runs t texts' := by
  obtain ⟨es, rfl, hes⟩ := h
  refine ⟨es.take texts'.length, ?_, ((List.take_sublist _ _).map _).trans hes⟩
  rw [List.map_take, ← List.prefix_iff_eq_take.1 hp]

theorem append (h : Executed runs t texts) (h' : Executed runs' t texts') :
    Executed (runs ++ runs') t (texts ++ texts') := by
  obtain ⟨es, rfl, hes⟩ := h
  obtain ⟨es', rfl, hes'⟩ := h'
  refine ⟨es ++ es', List.map_append, ?_⟩
  rw [List.map_append, List.flatMap_append]
  exact hes.append hes'

theorem append_runs (h : Executed runs t texts) (runs' : List HostRun) :
    Executed (runs ++ runs') t texts := by
  simpa using h.append (nil runs' t)

end Executed

/-- The text that a deed executes for a task. -/
def Deed.text? (t : String) : Deed → Option String
  | execute t' a => if t' = t then some a.action.script else none
  | _ => none

theorem Shown.successes {r : Runner} {ds : List Deed} {as : List Act} (h : Shown r ds as)
    (t : String) : as.filterMap (Act.success? t) =
      (ds.filterMap (Deed.text? t)).map fun text => ⟨r.wrap text, []⟩ := by
  induction ds generalizing as with
  | nil =>
    obtain rfl : as = [] := h
    rfl
  | cons d ds ih =>
    obtain ⟨bs, cs, rfl, hbs, hcs⟩ := h
    rw [List.filterMap_append, ih hcs]
    cases d with
    | makeDir | sweep =>
      obtain rfl : bs = [] := hbs
      rfl
    | skip t' a =>
      obtain rfl : bs = [.skipped t' a.index] := hbs
      rfl
    | execute t' a =>
      obtain ⟨reply, hexit, rfl⟩ := hbs
      by_cases ht : t' = t <;> simp [Act.success?, Deed.text?, ht, hexit]

/-- What a run shows as executed is executed. -/
theorem Executed.of_shown {run : HostRun} {ds : List Deed} {as bs : List Act}
    (hacts : acts (exchanges run.moments) = as ++ bs) (h : Shown run.runner ds as) (t : String) :
    Executed [run] t (ds.filterMap (Deed.text? t)) := by
  refine ⟨(ds.filterMap (Deed.text? t)).map fun text => (run.runner, text), ?_, ?_⟩
  · rw [List.map_map]
    exact List.map_id _
  · rw [List.flatMap_singleton, HostRun.successes, hacts, List.filterMap_append, h.successes,
      List.map_append, List.map_map, List.map_map]
    exact List.sublist_append_left _ _

/-- No deed executes a text for another task than its own. -/
theorem Deed.filterMap_text (ds : List Deed) (t : String) :
    ds.filterMap (Deed.text? t) = (ds.filter (·.task = t)).filterMap (Deed.text? t) := by
  induction ds with
  | nil => rfl
  | cons d ds ih =>
    by_cases h : d.task = t
    · rw [List.filter_cons_of_pos (by simpa using h), List.filterMap_cons, List.filterMap_cons, ih]
    · have hnone : d.text? t = none := by
        cases d with
        | execute t' a => exact if_neg h
        | _ => rfl
      rw [List.filter_cons_of_neg (by simpa using h), List.filterMap_cons_none hnone, ih]

namespace Task

variable {task : Task} {known : List String}

/-- What the first deeds of a task execute. -/
theorem texts_take_deeds (l : Nat) :
    ((task.deeds known).take l).filterMap (Deed.text? task.name) =
      (task.scripts.take (l - 2)).drop (task.reach known) := by
  have hfirst : ∀ ds : List Deed, (∀ d ∈ ds, d ∈ task.firstDeeds known) →
      ds.filterMap (Deed.text? task.name) = [] := by
    intro ds hds
    rw [List.filterMap_eq_nil_iff]
    intro d hd
    rcases List.mem_cons.1 (hds d hd) with rfl | hd
    · rfl
    · obtain ⟨a, -, rfl⟩ := List.mem_map.1 hd
      rfl
  rcases Nat.lt_or_ge (task.reach known + 1) l with h | h
  · have hdue : ∀ as : List PlannedAction,
        (as.map (Deed.execute task.name)).filterMap (Deed.text? task.name) =
          as.map fun a => a.action.script := by
      intro as
      rw [List.filterMap_map, ← List.filterMap_eq_map']
      congr 1
      funext a
      simp [Deed.text?]
    rw [take_deeds_of_gt task known h, List.filterMap_append, hfirst _ fun _ hd => hd,
      List.nil_append, List.filterMap_cons_none rfl, hdue, Plan.due_eq, List.map_take,
      List.map_drop,
      Plan.map_script_actions, List.drop_take]
  · rw [take_deeds_of_le task known h, hfirst _ fun _ hd => List.mem_of_mem_take hd,
      List.drop_eq_nil_of_le]
    rw [List.length_take]
    omega

end Task

/-! ### Texts and their bounds -/

theorem length_join_take_le (ss : List String) {i j : Nat} (h : i ≤ j) :
    (String.join (ss.take i)).length ≤ (String.join (ss.take j)).length := by
  obtain ⟨k, rfl⟩ := Nat.exists_eq_add_of_le h
  rw [List.take_add, String.join_append, String.length_append]
  exact Nat.le_add_right _ _

theorem join_flatten (groups : List (List String)) :
    String.join groups.flatten = String.join (groups.map String.join) := by
  induction groups with
  | nil => rfl
  | cons g gs ih =>
    rw [List.flatten_cons, String.join_append, ih, List.map_cons, String.join_cons]

/-- If every first part of some texts is a first part of others, then each of the former is one or
more of the latter. -/
theorem exists_groups (xs : List String) {ss : List String} (hne : ∀ s ∈ ss, s ≠ "") {n : Nat}
    (hn : n ≤ ss.length)
    (h : ∀ k ≤ n, ∃ j, String.join (xs.take j) = String.join (ss.take k)) :
    ∃ groups : List (List String), groups.map String.join = ss.take n ∧
      (∀ g ∈ groups, g ≠ []) ∧ groups.flatten <+: xs := by
  induction n with
  | zero => exact ⟨[], by simp, by simp, by simp⟩
  | succ n ih =>
    obtain ⟨groups, hmap, hgroups, hprefix⟩ := ih (by omega) fun k hk => h k (by omega)
    obtain ⟨j, hj⟩ := h (n + 1) (Nat.le_refl _)
    have hnext : ss.take (n + 1) = ss.take n ++ [ss[n]] := List.take_succ_eq_append_getElem hn
    have hjoin : String.join groups.flatten = String.join (ss.take n) := by
      rw [← hmap, join_flatten]
    have hlt := length_join_take_lt hne (show n < n + 1 by omega) hn
    have htake := List.prefix_iff_eq_take.1 hprefix
    -- the next group begins where the last one ended, and ends at `j`
    have hle : groups.flatten.length ≤ j := by
      refine Nat.le_of_not_lt fun hlt' => ?_
      have hshort := length_join_take_le xs (Nat.le_of_lt hlt')
      rw [← htake, hjoin, hj] at hshort
      omega
    have hsplit : xs.take j = groups.flatten ++ (xs.take j).drop groups.flatten.length := by
      conv =>
        lhs
        rw [← List.take_append_drop groups.flatten.length (xs.take j), List.take_take,
          Nat.min_eq_left hle, ← htake]
    have hlast : String.join ((xs.take j).drop groups.flatten.length) = ss[n] := by
      rw [hsplit, hnext, String.join_append, String.join_append, hjoin, String.append_right_inj]
        at hj
      simpa [String.join_cons] using hj
    refine ⟨groups ++ [(xs.take j).drop groups.flatten.length], ?_, ?_, ?_⟩
    · rw [List.map_append, hmap, hnext, List.map_singleton, hlast]
    · refine List.forall_mem_append.2 ⟨hgroups, List.forall_mem_singleton.2 fun hnil => ?_⟩
      rw [hnil] at hlast
      exact hne _ (List.getElem_mem hn) hlast.symm
    · rw [List.flatten_append, List.flatten_singleton, ← hsplit]
      exact List.take_prefix _ _

/-- Whether no two tasks of a name cut the same text at different bounds. -/
def FixedBounds (tasks : List Task) (t : String) : Prop :=
  ∀ a ∈ tasks, ∀ b ∈ tasks, a.name = t → b.name = t → ∀ i j : Nat,
    String.join (a.scripts.take i) = String.join (b.scripts.take j) →
      a.scripts.take i = b.scripts.take j

/-- A task without empty scripts that is never edited keeps its bounds. -/
theorem FixedBounds.of_eq {tasks : List Task} {task : Task} (hne : ∀ s ∈ task.scripts, s ≠ "")
    (h : ∀ a ∈ tasks, a.name = task.name → a = task) : FixedBounds tasks task.name := by
  have hlt : ∀ i j : Nat, i < j → String.join (task.scripts.take i) =
      String.join (task.scripts.take j) → task.scripts.take i = task.scripts.take j := by
    intro i j hij hjoin
    rcases Nat.lt_or_ge i task.scripts.length with hi | hi
    · have hshort := length_join_take_lt hne (show i < min j task.scripts.length by omega)
        (Nat.min_le_right _ _)
      rw [← List.take_eq_take_min, hjoin] at hshort
      omega
    · rw [List.take_of_length_le hi, List.take_of_length_le (by omega)]
  intro a ha b hb hat hbt i j hjoin
  obtain rfl := h a ha hat
  obtain rfl := h b hb hbt
  rcases Nat.lt_trichotomy i j with hij | rfl | hij
  · exact hlt i j hij hjoin
  · rfl
  · exact (hlt j i hij hjoin.symm).symm

/-- Whether texts are the same one after another, and also one by one if the bounds count. -/
def SameText (bounds : Prop) (xs ys : List String) : Prop :=
  String.join xs = String.join ys ∧ (bounds → xs = ys)

namespace SameText

variable {bounds : Prop} {xs ys : List String}

theorem refl (bounds : Prop) (xs : List String) : SameText bounds xs xs :=
  ⟨rfl, fun _ => rfl⟩

theorem append_right (h : SameText bounds xs ys) (zs : List String) :
    SameText bounds (xs ++ zs) (ys ++ zs) := by
  refine ⟨?_, fun hbounds => ?_⟩
  · rw [String.join_append, String.join_append, h.1]
  · rw [h.2 hbounds]

/-- What goes on as the other one does comes to the same text at every place of it. -/
theorem append_drop {l k n : Nat} (h : SameText bounds xs (ys.take l)) (hl : l ≤ k) (hk : k ≤ n) :
    SameText bounds ((xs ++ (ys.take n).drop l).take (xs.length + (k - l))) (ys.take k) := by
  have hfirst : ys.take l = (ys.take k).take l := by
    rw [List.take_take, Nat.min_eq_left hl]
  have hrest : ((ys.take n).drop l).take (k - l) = (ys.take k).drop l := by
    rw [List.take_drop, Nat.add_sub_cancel' hl, List.take_take, Nat.min_eq_left hk]
  have hsame := h.append_right ((ys.take k).drop l)
  rw [hfirst, List.take_append_drop] at hsame
  rw [List.take_length_add_append, hrest]
  exact hsame

/-- A longer text takes no fewer parts, none of which is empty. -/
theorem le_of_le {j k l m : Nat} (hj : SameText bounds (xs.take j) (ys.take k))
    (hm : SameText bounds (xs.take m) (ys.take l)) (hkl : k ≤ l) (hxs : ∀ x ∈ xs, x ≠ "")
    (hjxs : j ≤ xs.length) : j ≤ m := by
  refine Nat.le_of_not_lt fun hmj => ?_
  have hmore := length_join_take_lt hxs hmj hjxs
  have hless := length_join_take_le ys hkl
  rw [hm.1, hj.1] at hmore
  omega

end SameText

/-! ### Where markers come from -/

/-- Whether the markers of success of a task go back to the execution of some texts for it, one
after another: each is that of a submitted task whose texts up to there are the first of these. -/
structure Traced (runs : List HostRun) (root : String) (tasks : List Task) (fs : Files) (t : String)
    (texts : List String) : Prop where
  /-- The texts were executed. -/
  executed : Executed runs t texts
  /-- None of them is empty. -/
  nonempty : ∀ x ∈ texts, x ≠ ""
  /-- The markers are those of first parts of the texts. -/
  marked : ∀ s ∈ fs.sums root .success t, ∃ j ≤ texts.length, ∃ task ∈ tasks, task.name = t ∧
    ∃ (k : Nat) (hk : k < task.checksums.length), s = task.checksums[k] ∧
      SameText (FixedBounds tasks t) (texts.take j) (task.scripts.take (k + 1))

namespace Traced

variable {runs : List HostRun} {run : HostRun} {root t : String} {tasks : List Task}
  {fs fs' : Files} {texts : List String} {part : Failing}

theorem empty (root t : String) : Traced [] root tasks ∅ t [] where
  executed := .nil [] t
  nonempty := by simp
  marked s hs := absurd hs.2 (Set.notMem_empty _)

/-- A run that gives a task no new markers leaves what they go back to. -/
theorem of_subset (h : Traced runs root tasks fs t texts)
    (hsub : fs'.sums root .success t ⊆ fs.sums root .success t) :
    Traced (runs ++ [run]) root tasks fs' t texts where
  executed := h.executed.append_runs [run]
  nonempty := h.nonempty
  marked s hs := h.marked s (hsub hs)

/-- The texts of a task up to a command with a marker were executed. -/
theorem exists_sameText (h : Traced runs root tasks fs t texts) (hc : CollisionFree tasks)
    {task : Task} (ht : task ∈ tasks) (hname : task.name = t) {k : Nat}
    (hk : k < task.checksums.length) (hs : task.checksums[k] ∈ fs.sums root .success t) :
    ∃ j ≤ texts.length,
      SameText (FixedBounds tasks t) (texts.take j) (task.scripts.take (k + 1)) := by
  obtain ⟨j, hj, task', ht', hname', k', hk', hsum, hsame⟩ := h.marked _ hs
  -- the marker may have been left by another version of the task
  have hjoin := hc.join_eq ht ht' hk hk' hsum
  refine ⟨j, hj, hsame.1.trans hjoin.symm, fun hbounds => ?_⟩
  rw [hsame.2 hbounds]
  exact hbounds task' ht' task ht hname' hname _ _ hjoin.symm

/-- The same up to the end of the cache. -/
theorem exists_sameText_reach (h : Traced runs root tasks fs t texts) (hc : CollisionFree tasks)
    {task : Task} (ht : task ∈ tasks) (hname : task.name = t) {known : List String}
    (hknown : ∀ s, s ∈ known ↔ s ∈ fs.sums root .success t) {k : Nat} (hk : k ≤ task.reach known) :
    ∃ j ≤ texts.length, SameText (FixedBounds tasks t) (texts.take j) (task.scripts.take k) := by
  cases k with
  | zero => exact ⟨0, Nat.zero_le _, by simpa using .refl _ []⟩
  | succ k =>
    have hlt : k < task.checksums.length := by
      have := Plan.reach_le known task.checksums
      exact Nat.lt_of_lt_of_le hk this
    have hmem : task.checksums[k] ∈ task.checksums.take (task.reach known) :=
      List.mem_take_iff_getElem.2 ⟨k, Nat.lt_min.2 ⟨hk, hlt⟩, rfl⟩
    exact h.exists_sameText hc ht hname hlt ((hknown _).1 (Plan.mem_of_mem_take_reach hmem))

/-- A run that executes the commands of a task from the end of the cache on goes on with texts that
were executed before. -/
theorem of_executed (h : Traced runs root tasks fs t texts) (hc : CollisionFree tasks) {task : Task}
    (ht : task ∈ tasks) (hname : task.name = t) (hne : ∀ s ∈ task.scripts, s ≠ "")
    {known : List String} (hknown : ∀ s, s ∈ known ↔ s ∈ fs.sums root .success t) {n : Nat}
    (hn : task.reach known ≤ n) (hlen : n ≤ task.scripts.length)
    (hrun : Executed [run] t ((task.scripts.take n).drop (task.reach known)))
    (hsub : ∀ s ∈ fs'.sums root .success t, s ∈ task.checksums.take n) :
    ∃ texts', Traced (runs ++ [run]) root tasks fs' t texts' := by
  obtain ⟨m, hm, hreach⟩ := h.exists_sameText_reach hc ht hname hknown (Nat.le_refl _)
  -- of the old texts only those count that the task goes on from
  refine ⟨texts.take m ++ (task.scripts.take n).drop (task.reach known), ?_, ?_, ?_⟩
  · exact (h.executed.of_prefix (List.take_prefix _ _)).append hrun
  · refine List.forall_mem_append.2 ⟨fun x hx => h.nonempty x (List.mem_of_mem_take hx), ?_⟩
    intro x hx
    exact hne x (List.mem_of_mem_take (List.mem_of_mem_drop hx))
  · intro s hs
    obtain ⟨k, hk, rfl⟩ := List.mem_take_iff_getElem.1 (hsub s hs)
    have hlt : k < task.checksums.length := Nat.lt_of_lt_of_le hk (Nat.min_le_right _ _)
    have hkn : k < n := Nat.lt_of_lt_of_le hk (Nat.min_le_left _ _)
    suffices hj : ∃ j ≤ (texts.take m ++ (task.scripts.take n).drop (task.reach known)).length,
        SameText (FixedBounds tasks t)
          ((texts.take m ++ (task.scripts.take n).drop (task.reach known)).take j)
          (task.scripts.take (k + 1)) by
      obtain ⟨j, hj, hsame⟩ := hj
      exact ⟨j, hj, task, ht, hname, k, hlt, rfl, hsame⟩
    rcases Nat.lt_or_ge k (task.reach known) with hkr | hkr
    · -- a command that was skipped
      obtain ⟨j, hj, hsame⟩ := h.exists_sameText_reach hc ht hname hknown hkr
      have hjm : j ≤ m := hsame.le_of_le hreach hkr h.nonempty hj
      have hjlen : j ≤ (texts.take m).length := by
        rw [List.length_take]
        omega
      refine ⟨j, by rw [List.length_append]; omega, ?_⟩
      rw [List.take_append_of_le_length hjlen, List.take_take, Nat.min_eq_left hjm]
      exact hsame
    · -- a command that was executed
      refine ⟨(texts.take m).length + (k + 1 - task.reach known), ?_,
        hreach.append_drop (by omega) hkn⟩
      simp only [List.length_append, List.length_drop, List.length_take]
      omega

/-- A run that may be cut off anywhere, and whose scripts may do any part of their work, leaves
markers that go back to executions. -/
theorem of_leaves (h : Traced runs root tasks run.start t texts) (ht : Slashless t)
    (hlast : run.Leaves root part fs) (hb : run.start.Below root) (hs : Submittable run.tasks)
    (hsub : ∀ task ∈ run.tasks, task ∈ tasks) (hc : CollisionFree tasks) :
    ∃ texts', Traced (runs ++ [run]) root tasks fs t texts' := by
  have hcourse := hlast.course
  obtain ⟨rfl, -⟩ := hlast
  cases hcourse with
  | idle hidle _ => exact ⟨texts, h.of_subset (by rw [Files.sums_eq_of_markers_eq hidle.markers])⟩
  | @working inv past ahead known deeds underway _ =>
    obtain ⟨done, as, bs, hdone, hacts, hshown, hmarked⟩ := underway.exists_reached fun d hd =>
      Task.proper_of_mem_itinerary hs (deeds ▸ hd)
    rw [← deeds] at hdone
    have hmarked := hmarked t ht
    by_cases hmem : t ∈ run.tasks.map Task.name
    · obtain ⟨task, htask, rfl⟩ := List.mem_map.1 hmem
      obtain ⟨l, hl, hfilter, hstage⟩ := known.exists_stage hb hs.names htask hdone
      rw [hstage, Task.stage] at hmarked
      split at hmarked
      · exact ⟨texts, h.of_subset hmarked⟩
      · -- after the sweep the markers are those of the first commands
        have hrun : Executed [run] task.name
            ((task.scripts.take (l - 2)).drop (task.reach (inv.sums task.name))) := by
          rw [← Task.texts_take_deeds, ← hfilter, ← Deed.filterMap_text]
          exact .of_shown hacts hshown _
        refine h.of_executed hc (hsub task htask) rfl (hs.scripts task htask)
          (known.mem_sums hb task.name) (by omega) ?_ hrun hmarked
        rw [Task.length_scripts]
        omega
    · rw [reached_of_not_mem hs.names hmem hdone] at hmarked
      exact ⟨texts, h.of_subset hmarked⟩

end Traced

/-- What a run that came to a good end has executed are scripts of its tasks. -/
theorem HostRun.Leaves.exists_script_of_mem_successes {run : HostRun} {root : String}
    {part : Failing} {fs : Files} (h : run.Leaves root part fs) {c : Counts}
    (hc : run.rest = .done (.ok c)) (hs : Submittable run.tasks) {t : String} {e : Runner × Call}
    (he : e ∈ run.successes t) : ∃ task ∈ run.tasks, ∃ s ∈ task.scripts,
      e = (run.runner, ⟨run.runner.wrap s, []⟩) := by
  obtain ⟨inv, -, -, underway⟩ := h.course.completed hc
  obtain ⟨-, hshown⟩ := underway.finished fun d hd => Task.proper_of_mem_itinerary hs hd
  rw [successes, hshown.successes, List.map_map, List.mem_map] at he
  obtain ⟨s, hs', rfl⟩ := he
  obtain ⟨d, hd, htext⟩ := List.mem_filterMap.1 hs'
  obtain ⟨task, htask, hd⟩ := (Task.mem_itinerary hs.names).1 hd
  refine ⟨task, htask, s, ?_, rfl⟩
  cases d with
  | execute t' a =>
    obtain ⟨-, rfl⟩ := Option.ite_some_none_eq_some.1 htext
    have ha := (List.mem_filter.1 ((task.execute_mem_deeds _).1 hd).2).1
    rw [← Plan.map_script_actions task (inv.sums task.name)]
    exact List.mem_map_of_mem ha
  | _ => cases htext

/-! ### Skips -/

/-- Only deeds that skip a command show as such. -/
theorem Deed.Shows.exists_skip {r : Runner} {d : Deed} {as : List Act} {t : String} {i : Nat}
    (h : d.Shows r as) (hm : .skipped t i ∈ as) : ∃ a, d = .skip t a ∧ a.index = i := by
  cases d with
  | makeDir | sweep =>
    obtain rfl : as = [] := h
    simp at hm
  | skip t' a =>
    obtain rfl : as = [.skipped t' a.index] := h
    obtain ⟨rfl, rfl⟩ := Act.skipped.inj (List.mem_singleton.1 hm)
    exact ⟨a, rfl, rfl⟩
  | execute t' a =>
    obtain ⟨reply, -, rfl⟩ := h
    cases List.mem_singleton.1 hm

theorem Deed.Begins.exists_skip {r : Runner} {d : Deed} {act : Act} {t : String} {i : Nat}
    (h : d.Begins r act) (hm : act = .skipped t i) : ∃ a, d = .skip t a ∧ a.index = i := by
  subst hm
  cases d with
  | makeDir | sweep => exact h.elim
  | skip t' a =>
    obtain ⟨rfl, rfl⟩ := Act.skipped.inj h
    exact ⟨a, rfl, rfl⟩
  | execute t' a =>
    obtain ⟨reply, he⟩ := h
    cases he

theorem Shown.exists_skip {r : Runner} {ds : List Deed} {as : List Act} {t : String} {i : Nat}
    (h : Shown r ds as) (hm : .skipped t i ∈ as) : ∃ a, .skip t a ∈ ds ∧ a.index = i := by
  induction ds generalizing as with
  | nil =>
    obtain rfl : as = [] := h
    simp at hm
  | cons d ds ih =>
    obtain ⟨bs, cs, rfl, hbs, hcs⟩ := h
    rcases List.mem_append.1 hm with hm | hm
    · obtain ⟨a, rfl, hi⟩ := hbs.exists_skip hm
      exact ⟨a, List.mem_cons_self, hi⟩
    · obtain ⟨a, ha, hi⟩ := ih hcs hm
      exact ⟨a, List.mem_cons_of_mem _ ha, hi⟩

/-- A run skips a command only by one of its deeds. -/
theorem Underway.exists_skip {r : Runner} {part : Failing} {past ahead : List Deed} {fs fs' : Files}
    {ms : List (Moment Files)} (h : Underway r part past ahead fs ms fs') {t : String} {i : Nat}
    (hm : .skipped t i ∈ acts (exchanges ms)) :
    ∃ a, .skip t a ∈ past ++ ahead ∧ a.index = i := by
  obtain ⟨did, as, bs, -, hacts, hshown, hhalf⟩ := h.halfway
  rw [hacts, List.mem_append] at hm
  rcases hm with hm | hm
  · obtain ⟨a, ha, hi⟩ := hshown.exists_skip hm
    exact ⟨a, List.mem_append_left _ ha, hi⟩
  · suffices hd : ∃ d, ahead.head? = some d ∧ ∃ a, d = .skip t a ∧ a.index = i by
      obtain ⟨d, hd, a, rfl, hi⟩ := hd
      exact ⟨a, List.mem_append_right _ (List.mem_of_head? hd), hi⟩
    generalize ahead.head? = d? at hhalf
    cases hhalf with
    | idle => simp at hm
    | begun hb => exact ⟨_, rfl, hb.exists_skip (List.mem_singleton.1 hm).symm⟩
    | partly hs _ => exact ⟨_, rfl, hs.exists_skip hm⟩
    | lapsed hb _ => exact ⟨_, rfl, hb.exists_skip (List.mem_singleton.1 hm).symm⟩

variable {root : String} {part : Failing} {fs : Files} {runs : List HostRun} {run : HostRun}
  {tasks : List Task}

/-- The markers of every task of a host whose cache was empty in the beginning go back to
executions. -/
theorem History.exists_traced (h : History root part ∅ runs fs)
    (hs : ∀ run ∈ runs, Submittable run.tasks) (hsub : ∀ t ∈ submitted runs, t ∈ tasks)
    (hc : CollisionFree tasks) {t : String} (ht : Slashless t) :
    ∃ texts, Traced runs root tasks fs t texts := by
  -- the texts change from run to run, so each run finds new ones
  induction h with
  | nil => exact ⟨[], .empty root t⟩
  | @snoc runs run fs before last ih =>
    rw [submitted_append, List.forall_mem_append] at hsub
    rw [List.forall_mem_append, List.forall_mem_singleton] at hs
    have hb := before.files_below (Files.below_empty root) hs.1
    obtain ⟨texts, htexts⟩ := ih hs.1 hsub.1
    refine htexts.of_leaves ht last hb hs.2 (fun task htask => hsub.2 task ?_) hc
    rw [submitted, List.flatMap_singleton]
    exact htask

/-- How far the cache of a run reaches at least, if it skips a command. -/
theorem RunCourse.lt_reach_of_cached {r : Runner} {fs' : Files} {ms : List (Moment Files)}
    {ends : Counts → Prop} (h : RunCourse r part tasks fs ms fs' ends) (hs : Submittable tasks)
    {task : Task} (ht : task ∈ tasks) {i : Nat} {sum label : String}
    (hcached : .told (.commandCached task.name i sum label) ∈ exchanges ms) :
    ∃ inv, Known r.settings.cacheRoot fs inv ∧ i < task.reach (inv.sums task.name) := by
  cases h with
  | idle h _ => exact (h.quiet _ hcached).elim
  | @working inv past ahead known deeds underway _ =>
    obtain ⟨a, ha, rfl⟩ := underway.exists_skip (skipped_mem_acts_iff.2 ⟨_, _, hcached⟩)
    rw [← deeds] at ha
    have ha := (task.skip_mem_deeds _).1 (Task.mem_deeds_of_mem_itinerary hs.names ht ha rfl)
    rw [Plan.skipped_eq] at ha
    obtain ⟨j, hj, rfl⟩ := List.mem_take_iff_getElem.1 ha.2
    rw [Plan.getElem_actions]
    exact ⟨inv, known, Nat.lt_of_lt_of_le hj (Nat.min_le_left _ _)⟩

/-- Whatever came of the runs on a host whose cache was empty in the beginning: if a run skips a
command, then the texts of its task up to that command were executed for the task in earlier runs,
in order and all with success.  The texts executed may be cut at other bounds, so that each text of
the task is one or more of them.  Where all tasks of that name have the same bounds, the texts of
the task themselves were executed.  Listings tell the truth in a history, as they do under a root
that does not end in two slashes (`Allowed.found`). -/
theorem History.skipped_executed (h : History root part ∅ (runs ++ [run]) fs)
    (hs : ∀ run' ∈ runs ++ [run], Submittable run'.tasks)
    (hc : CollisionFree (submitted (runs ++ [run]))) {task : Task} (ht : task ∈ run.tasks) {i : Nat}
    {sum label : String}
    (hcached : .told (.commandCached task.name i sum label) ∈ exchanges run.moments) :
    i < task.scripts.length ∧
      (∃ groups : List (List String), groups.map String.join = task.scripts.take (i + 1) ∧
        (∀ g ∈ groups, g ≠ []) ∧ Executed runs task.name groups.flatten) ∧
      (FixedBounds (submitted (runs ++ [run])) task.name →
        Executed runs task.name (task.scripts.take (i + 1))) := by
  obtain ⟨before, last⟩ := h.snoc_inv
  rw [List.forall_mem_append, List.forall_mem_singleton] at hs
  have hb := before.files_below (Files.below_empty root) hs.1
  have hsubmitted : task ∈ submitted (runs ++ [run]) :=
    List.mem_flatMap.2 ⟨run, by simp, ht⟩
  obtain ⟨texts, htexts⟩ := before.exists_traced hs.1
    (fun t htask => by rw [submitted_append]; exact List.mem_append_left _ htask) hc
    (slashless_of_nameFault (hs.2.valid task ht))
  have hcourse := last.course
  obtain ⟨rfl, -⟩ := last
  obtain ⟨inv, known, hlt⟩ := hcourse.lt_reach_of_cached hs.2 ht hcached
  have hlen : i < task.scripts.length := by
    have := task.reach_le (inv.sums task.name)
    rw [Task.length_scripts]
    omega
  have hsame : ∀ k ≤ i + 1, ∃ j ≤ texts.length,
      SameText (FixedBounds (submitted (runs ++ [run])) task.name) (texts.take j)
        (task.scripts.take k) := by
    intro k hk
    exact htexts.exists_sameText_reach hc hsubmitted rfl (known.mem_sums hb task.name)
      (Nat.le_trans hk hlt)
  refine ⟨hlen, ?_, fun hbounds => ?_⟩
  · obtain ⟨groups, hmap, hne, hprefix⟩ := exists_groups texts (hs.2.scripts task ht)
      (Nat.succ_le_of_lt hlen) fun k hk => by
        obtain ⟨j, -, hj⟩ := hsame k hk
        exact ⟨j, hj.1⟩
    exact ⟨groups, hmap, hne, htexts.executed.of_prefix hprefix⟩
  · obtain ⟨j, -, hj⟩ := hsame (i + 1) (Nat.le_refl _)
    rw [← hj.2 hbounds]
    exact htexts.executed.of_prefix (List.take_prefix _ _)

/-- A task that is submitted twice is skipped the second time, and was executed as it is the first
time. -/
theorem History.greeting_executed : ∃ run₁ run₂ fs,
    History Runner.byDefault.settings.cacheRoot .torn ∅ ([run₁] ++ [run₂]) fs ∧
      run₁.tasks = [.greeting] ∧ run₂.tasks = [.greeting] ∧
      (∃ sum label, .told (.commandCached "greeting" 1 sum label) ∈ exchanges run₂.moments) ∧
      1 < Task.greeting.scripts.length ∧
      Executed [run₁] "greeting" (Task.greeting.scripts.take 2) := by
  obtain ⟨run₁, run₂, fs, ht₁, ht₂, -, h, ⟨c₁, hc₁⟩, c₂, hc₂⟩ := History.exists_two .torn rfl
    Runner.legible_byDefault Task.submittable_greeting [.greeting]
  have hs : ∀ run ∈ [run₁] ++ [run₂], Submittable run.tasks := by
    simpa [ht₁, ht₂] using Task.submittable_greeting
  have hc : CollisionFree (submitted ([run₁] ++ [run₂])) :=
    Task.collisionFree_greetings.mono (by simp [submitted, ht₁, ht₂])
  have hlen : 1 < Task.greeting.checksums.length := by simp [Task.greeting]
  have htask₁ : Task.greeting ∈ run₁.tasks := by simp [ht₁]
  have htask₂ : Task.greeting ∈ run₂.tasks := by simp [ht₂]
  obtain ⟨sum, label, htold⟩ := h.exists_cached hc₁ hc₂ hs hc htask₁ htask₂ rfl hlen
    fun s => List.mem_of_mem_take
  obtain ⟨hscripts, -, hexecuted⟩ := History.skipped_executed h hs hc htask₂ htold
  have hbounds : FixedBounds (submitted ([run₁] ++ [run₂])) Task.greeting.name :=
    .of_eq (Task.submittable_greeting.scripts _ (by simp)) (by simp [submitted, ht₁, ht₂])
  exact ⟨run₁, run₂, fs, h, ht₁, ht₂, ⟨sum, label, htold⟩, hscripts, hexecuted hbounds⟩

/-- The bounds between commands may get lost: a command is skipped that says at once what two
commands said before, although its text was never executed. -/
theorem History.greetingAtOnce_skipped : ∃ run₁ run₂ fs,
    History Runner.byDefault.settings.cacheRoot .whole ∅ ([run₁] ++ [run₂]) fs ∧
      run₁.tasks = [.greeting] ∧ run₂.tasks = [.greetingAtOnce] ∧
      (∀ run ∈ [run₁] ++ [run₂], Submittable run.tasks) ∧
      CollisionFree (submitted ([run₁] ++ [run₂])) ∧
      (∃ sum label, .told (.commandCached "greeting" 0 sum label) ∈ exchanges run₂.moments) ∧
      ¬ Executed [run₁] "greeting" (Task.greetingAtOnce.scripts.take 1) := by
  obtain ⟨run₁, run₂, fs, ht₁, ht₂, hr₁, h, ⟨c₁, hc₁⟩, c₂, hc₂⟩ := History.exists_two .whole rfl
    Runner.legible_byDefault Task.submittable_greeting [.greetingAtOnce]
  have hs : ∀ run ∈ [run₁] ++ [run₂], Submittable run.tasks := by
    simpa [ht₁, ht₂] using ⟨Task.submittable_greeting, Task.submittable_greetingAtOnce⟩
  have hc : CollisionFree (submitted ([run₁] ++ [run₂])) := by
    simpa [submitted, ht₁, ht₂] using Task.collisionFree_greetings
  have hlen : 0 < Task.greetingAtOnce.checksums.length := by simp [Task.greetingAtOnce]
  have htask₁ : Task.greeting ∈ run₁.tasks := by simp [ht₁]
  have htask₂ : Task.greetingAtOnce ∈ run₂.tasks := by simp [ht₂]
  refine ⟨run₁, run₂, fs, h, ht₁, ht₂, hs, hc, ?_, ?_⟩
  · exact h.exists_cached hc₁ hc₂ hs hc htask₁ htask₂ rfl hlen fun s hs =>
      Task.checksums_greetingAtOnce_subset (List.mem_of_mem_take hs)
  · rintro ⟨es, htexts, hes⟩
    obtain ⟨⟨r, text⟩, rfl, rfl⟩ := List.map_eq_singleton_iff.1 htexts
    have hmem := hes.subset (List.mem_singleton_self _)
    rw [List.flatMap_singleton] at hmem
    obtain ⟨-, first⟩ := History.singleton_iff.1 h.snoc_inv.1
    obtain ⟨task, htask, s, hscript, he⟩ :=
      first.exists_script_of_mem_successes hc₁ (hs run₁ (by simp)) hmem
    rw [ht₁, List.mem_singleton] at htask
    subst htask
    rw [hr₁, Prod.mk.injEq, Call.mk.injEq] at he
    obtain ⟨rfl, hwrap, -⟩ := he
    revert s
    decide +kernel

end Provisioning
