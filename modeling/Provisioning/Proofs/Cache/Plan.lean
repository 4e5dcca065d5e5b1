import Provisioning.Cache.Plan
import Provisioning.Proofs.Digest.Stream
import Provisioning.Proofs.Text.Sorted

/-!
# Laws of plans

A plan skips a prefix of a task and runs the rest.  `Plan.reach` is the length of that prefix.

* `Plan.scan_eq` : the decisions, and the checksums left over;
* `Plan.le_reach` : the cache reaches as far as the checksums are known and all different;
* `Plan.actions_eq` : the planned commands are those skipped and then those due;
* `Plan.mem_stale` : what is stale;
* `Plan.ofTask_congr` : only the set of the known checksums matters.
-/

namespace Provisioning

namespace Plan

variable {known sums : List String}

/-! ### How far the cache reaches -/

/-- How many of some checksums are found in the cache, in order and each once. -/
def reach : (known sums : List String) → Nat
  | _, [] => 0
  | known, sum :: sums => if sum ∈ known then reach (known.filter (· ≠ sum)) sums + 1 else 0

theorem reach_le (known sums : List String) : reach known sums ≤ sums.length := by
  induction sums generalizing known with
  | nil => exact Nat.le_refl 0
  | cons s ss ih =>
    rw [reach]
    split
    · exact Nat.succ_le_succ (ih _)
    · exact Nat.zero_le _

/-- A scan skips as many commands as the cache reaches and leaves what it did not use. -/
theorem scan_eq (known sums : List String) :
    scan known sums =
      (List.replicate (reach known sums) .cached
          ++ List.replicate (sums.length - reach known sums) .execute,
        known.filter (· ∉ sums.take (reach known sums))) := by
  induction sums generalizing known with
  | nil => simp [scan, reach, List.filter_eq_self.2]
  | cons s ss ih =>
    rw [scan, reach]
    split
    · rw [ih]
      simp [List.replicate_succ, List.filter_filter, Nat.add_sub_add_right, Bool.and_comm]
    · simp [List.map_const', List.replicate_succ, List.filter_eq_self.2]

theorem mem_of_mem_take_reach {s : String} (h : s ∈ sums.take (reach known sums)) :
    s ∈ known := by
  induction sums generalizing known with
  | nil => simp at h
  | cons t ts ih =>
    rw [reach] at h
    split at h
    · next ht =>
      rw [List.take_succ_cons, List.mem_cons] at h
      rcases h with rfl | h
      · exact ht
      · exact (List.mem_filter.1 (ih h)).1
    · simp at h

/-- A cache that holds the first checksums, all of them different, reaches so far at least. -/
theorem le_reach {m : Nat} (hnodup : (sums.take m).Nodup) (hm : m ≤ sums.length)
    (hknown : ∀ s ∈ sums.take m, s ∈ known) : m ≤ reach known sums := by
  induction sums generalizing known m with
  | nil => exact hm
  | cons s ss ih =>
    cases m with
    | zero => exact Nat.zero_le _
    | succ m =>
      rw [List.take_succ_cons] at hnodup hknown
      rw [List.nodup_cons] at hnodup
      rw [reach, if_pos (hknown s List.mem_cons_self)]
      refine Nat.succ_le_succ (ih hnodup.2 (Nat.le_of_succ_le_succ hm) fun t ht => ?_)
      refine List.mem_filter.2 ⟨hknown t (List.mem_cons_of_mem _ ht), ?_⟩
      exact decide_eq_true fun heq => hnodup.1 (heq ▸ ht)

/-- A cache that holds exactly the first checksums reaches exactly so far. -/
theorem reach_eq (hnodup : sums.Nodup) {m : Nat} (hm : m ≤ sums.length)
    (hknown : ∀ s, s ∈ known ↔ s ∈ sums.take m) : reach known sums = m := by
  have hle := reach_le known sums
  have hnodup' := (List.take_sublist m sums).nodup hnodup
  rcases Nat.lt_or_eq_of_le (le_reach hnodup' hm fun s => (hknown s).2) with hgt | heq
  · -- the checksum after the first `m` is none of them
    have hm' : m < sums.length := by omega
    have hmem : sums[m] ∈ sums.take (reach known sums) :=
      List.mem_take_iff_getElem.2 ⟨m, by omega, rfl⟩
    obtain ⟨j, hj, heq⟩ :=
      List.mem_take_iff_getElem.1 ((hknown _).1 (mem_of_mem_take_reach hmem))
    have := (List.getElem_inj hnodup).1 heq
    omega
  · exact heq.symm

theorem reach_eq_length (hnodup : sums.Nodup) (hknown : ∀ s, s ∈ known ↔ s ∈ sums) :
    reach known sums = sums.length :=
  reach_eq hnodup (Nat.le_refl _) (by simpa using hknown)

/-- How far a cache reaches does not depend on the order in which it is known. -/
theorem reach_congr {known' : List String} (h : ∀ s, s ∈ known ↔ s ∈ known') :
    reach known sums = reach known' sums := by
  induction sums generalizing known known' with
  | nil => rfl
  | cons s ss ih =>
    rw [reach, reach]
    simp only [h s]
    rw [ih]
    intro x
    simp [h x]

/-! ### What is stale -/

@[simp] theorem mem_sortedSet {xs : List String} {x : String} : x ∈ sortedSet xs ↔ x ∈ xs := by
  rw [sortedSet, List.mem_mergeSort, List.mem_eraseDups]

theorem nodup_eraseDups (xs : List String) : xs.eraseDups.Nodup := by
  -- by the length, because the tail is filtered before it is looked at
  induction hn : xs.length using Nat.strongRecOn generalizing xs with
  | _ n ih =>
    cases xs with
    | nil => simp
    | cons x xs =>
      have hlt : (xs.filter fun y => !y == x).length < n := by
        have := List.length_filter_le (fun y => !y == x) xs
        rw [← hn, List.length_cons]
        omega
      rw [List.eraseDups_cons, List.nodup_cons]
      exact ⟨by simp, ih _ hlt _ rfl⟩

/-- Sorting leaves nothing of the order in which texts came. -/
theorem sortedSet_congr {xs ys : List String} (h : ∀ x, x ∈ xs ↔ x ∈ ys) :
    sortedSet xs = sortedSet ys := by
  refine Text.mergeSort_congr ?_
  rw [List.perm_ext_iff_of_nodup (nodup_eraseDups xs) (nodup_eraseDups ys)]
  simpa using h

variable (task : Task)

/-- Stale are the known checksums that no skipped command has. -/
theorem mem_stale {s : String} :
    s ∈ (ofTask task known).stale ↔
      s ∈ known ∧ s ∉ task.checksums.take (reach known task.checksums) := by
  simp [ofTask, scan_eq]

/-- A plan does not depend on the order in which checksums are known. -/
theorem ofTask_congr {known' : List String} (h : ∀ s, s ∈ known ↔ s ∈ known') :
    ofTask task known = ofTask task known' := by
  have hreach : reach known task.checksums = reach known' task.checksums := reach_congr h
  have hstale : sortedSet (known.filter (· ∉ task.checksums.take (reach known' task.checksums))) =
      sortedSet (known'.filter (· ∉ task.checksums.take (reach known' task.checksums))) := by
    refine sortedSet_congr fun s => ?_
    simp [h s]
  simp only [ofTask, scan_eq, hreach, hstale]

/-! ### Planned commands -/

/-- The commands that are skipped. -/
def skipped (p : Plan) : List PlannedAction := p.actions.filter (·.decision = .cached)

/-- The commands that are due. -/
def due (p : Plan) : List PlannedAction := p.actions.filter (·.decision = .execute)

theorem getElem?_actionsFrom (n : Nat) (as : List Action) (ss : List String) (ds : List Decision)
    (i : Nat) :
    (actionsFrom n as ss ds)[i]? =
      as[i]?.bind fun a => ss[i]?.bind fun s => ds[i]?.map fun d => ⟨n + i, s, a, d⟩ := by
  induction as generalizing n ss ds i with
  | nil => simp [actionsFrom]
  | cons a as ih =>
    cases ss with
    | nil => cases h : (a :: as)[i]? <;> simp [actionsFrom]
    | cons s ss =>
      cases ds with
      | nil => cases h : (a :: as)[i]? <;> cases h' : (s :: ss)[i]? <;> simp [actionsFrom]
      | cons d ds =>
        cases i with
        | zero => simp [actionsFrom]
        | succ i => simp [actionsFrom, ih, Nat.add_assoc, Nat.add_comm 1]

/-- The command planned at a place of a task. -/
theorem getElem?_actions (known : List String) (i : Nat) :
    (ofTask task known).actions[i]? =
      task.actions[i]?.bind fun a => task.checksums[i]?.map fun s =>
        ⟨i, s, a, if i < reach known task.checksums then .cached else .execute⟩ := by
  have hle : reach known task.checksums ≤ task.actions.length := by
    simpa using reach_le known task.checksums
  show (actionsFrom 0 task.actions task.checksums (scan known task.checksums).1)[i]? = _
  rw [getElem?_actionsFrom, scan_eq, Nat.zero_add]
  rcases Nat.lt_or_ge i task.actions.length with h | h
  · have hs : i < task.checksums.length := by simpa using h
    rw [List.getElem?_eq_getElem h, List.getElem?_eq_getElem hs]
    simp only [Option.bind_some, Option.map_some, List.getElem?_append, List.length_replicate,
      List.getElem?_replicate, Task.length_checksums]
    split
    · simp
    · rw [if_pos (by omega)]
      simp
  · rw [List.getElem?_eq_none h]
    rfl

@[simp] theorem length_actions (known : List String) :
    (ofTask task known).actions.length = task.actions.length := by
  refine Nat.le_antisymm ?_ ?_
  · rw [← List.getElem?_eq_none_iff, getElem?_actions, List.getElem?_eq_none (Nat.le_refl _)]
    rfl
  · refine Nat.le_of_not_lt fun h => ?_
    have hnone : (ofTask task known).actions[(ofTask task known).actions.length]? = none :=
      List.getElem?_eq_none (Nat.le_refl _)
    have hs : (ofTask task known).actions.length < task.checksums.length := by simpa using h
    rw [getElem?_actions, List.getElem?_eq_getElem h, List.getElem?_eq_getElem hs] at hnone
    simp at hnone

theorem getElem_actions {i : Nat} (h : i < (ofTask task known).actions.length) :
    (ofTask task known).actions[i] =
      ⟨i, task.checksums.get ⟨i, by simpa using h⟩, task.actions.get ⟨i, by simpa using h⟩,
        if i < reach known task.checksums then .cached else .execute⟩ := by
  have ha : i < task.actions.length := by simpa using h
  have hs : i < task.checksums.length := by simpa using h
  refine Option.some.inj ?_
  rw [← List.getElem?_eq_getElem h, getElem?_actions, List.getElem?_eq_getElem ha,
    List.getElem?_eq_getElem hs]
  rfl

theorem decision_of_mem_take {a : PlannedAction}
    (h : a ∈ (ofTask task known).actions.take (reach known task.checksums)) :
    a.decision = .cached := by
  obtain ⟨i, hi, rfl⟩ := List.mem_take_iff_getElem.1 h
  rw [getElem_actions, if_pos (by omega)]

theorem decision_of_mem_drop {a : PlannedAction}
    (h : a ∈ (ofTask task known).actions.drop (reach known task.checksums)) :
    a.decision = .execute := by
  obtain ⟨i, hi, rfl⟩ := List.mem_drop_iff_getElem.1 h
  rw [getElem_actions, if_neg (by omega)]

/-- The commands are skipped as far as the cache reaches. -/
theorem skipped_eq (known : List String) :
    (ofTask task known).skipped =
      (ofTask task known).actions.take (reach known task.checksums) := by
  rw [skipped]
  conv =>
    lhs
    rw [← List.take_append_drop (reach known task.checksums) (ofTask task known).actions]
  rw [List.filter_append, List.filter_eq_self.2 fun a ha => by simp [decision_of_mem_take task ha],
    List.filter_eq_nil_iff.2 fun a ha => by simp [decision_of_mem_drop task ha], List.append_nil]

/-- From where the cache ends on all commands are due. -/
theorem due_eq (known : List String) :
    (ofTask task known).due =
      (ofTask task known).actions.drop (reach known task.checksums) := by
  rw [due]
  conv =>
    lhs
    rw [← List.take_append_drop (reach known task.checksums) (ofTask task known).actions]
  rw [List.filter_append,
    List.filter_eq_nil_iff.2 fun a ha => by simp [decision_of_mem_take task ha],
    List.filter_eq_self.2 fun a ha => by simp [decision_of_mem_drop task ha], List.nil_append]

/-- The planned commands are those skipped and then those due. -/
theorem actions_eq (known : List String) :
    (ofTask task known).actions = (ofTask task known).skipped ++ (ofTask task known).due := by
  rw [skipped_eq, due_eq, List.take_append_drop]

/-- The planned commands are those of the task. -/
theorem map_action_actions (known : List String) :
    (ofTask task known).actions.map PlannedAction.action = task.actions := by
  refine List.ext_getElem (by simp) fun i h₁ h₂ => ?_
  rw [List.getElem_map, getElem_actions]
  rfl

/-- The planned commands have the checksums of the task. -/
theorem map_sum_actions (known : List String) :
    (ofTask task known).actions.map PlannedAction.sum = task.checksums := by
  refine List.ext_getElem (by simp) fun i h₁ h₂ => ?_
  rw [List.getElem_map, getElem_actions]
  rfl

/-- The planned commands have the scripts of the task. -/
theorem map_script_actions (known : List String) :
    (ofTask task known).actions.map (·.action.script) = task.scripts := by
  refine List.ext_getElem (by simp) fun i h₁ h₂ => ?_
  simp [getElem_actions, Task.scripts]

theorem map_sum_due (known : List String) :
    (ofTask task known).due.map PlannedAction.sum =
      task.checksums.drop (reach known task.checksums) := by
  rw [due_eq, List.map_drop, map_sum_actions]

/-- Where exactly the checksums of a task are known, all commands are skipped. -/
theorem decision_eq_cached (hnodup : task.checksums.Nodup)
    (hknown : ∀ s, s ∈ known ↔ s ∈ task.checksums) {a : PlannedAction}
    (ha : a ∈ (ofTask task known).actions) : a.decision = .cached := by
  have hmem : a ∈ (ofTask task known).actions.take (reach known task.checksums) := by
    rwa [reach_eq_length hnodup hknown, List.take_of_length_le (by simp)]
  exact decision_of_mem_take task hmem

/-- Where exactly the checksums of a task are known, nothing is stale. -/
theorem stale_eq_nil (hnodup : task.checksums.Nodup)
    (hknown : ∀ s, s ∈ known ↔ s ∈ task.checksums) : (ofTask task known).stale = [] := by
  refine List.eq_nil_iff_forall_not_mem.2 fun s hs => ?_
  rw [mem_stale, reach_eq_length hnodup hknown, List.take_length] at hs
  exact hs.2 ((hknown s).1 hs.1)

theorem length_skipped (known : List String) :
    (ofTask task known).skipped.length = reach known task.checksums := by
  have hle := reach_le known task.checksums
  rw [skipped_eq, List.length_take, length_actions]
  simp at hle
  omega

/-- What does not run is skipped. -/
theorem cached_eq (known : List String) :
    (ofTask task known).cached = (ofTask task known).skipped.length := by
  have hdue : (ofTask task known).toExecute = (ofTask task known).due.length := rfl
  rw [cached, hdue, actions_eq, List.length_append, Nat.add_sub_cancel]

end Plan

end Provisioning
