import Mathlib.Order.Bounds.Defs
import Provisioning.Proofs.Cache.Plan

/-!
# What is decided on a task, exactly

A task is skipped up to the longest prefix whose checksums are all known and pairwise different.

* `Plan.reach_isGreatest` : this is how far the cache reaches;
* `Plan.reach_mono` : so with more known it reaches no less far;
* `Plan.pairwise_stale` : what is stale stands strictly rising;
* `Plan.ofTask_exact` : decisions, entries and stale checksums of a plan.
-/

namespace Provisioning

namespace Plan

variable {known known' sums : List String}

/-! ### The longest known prefix -/

/-- The first checksums, as far as they are known and pairwise different. -/
def KnownPrefix (known sums : List String) (k : Nat) : Prop :=
  k ≤ sums.length ∧ (sums.take k).Nodup ∧ ∀ s ∈ sums.take k, s ∈ known

theorem knownPrefix_reach (known sums : List String) :
    KnownPrefix known sums (reach known sums) := by
  refine ⟨reach_le known sums, ?_, fun s => mem_of_mem_take_reach⟩
  induction sums generalizing known with
  | nil => simp
  | cons s ss ih =>
    rw [reach]
    split
    · rw [List.take_succ_cons, List.nodup_cons]
      refine ⟨fun hs => ?_, ih _⟩
      -- a checksum that is used up is not found again
      simpa using mem_of_mem_take_reach hs
    · simp

theorem reach_isGreatest (known sums : List String) :
    IsGreatest {k | KnownPrefix known sums k} (reach known sums) :=
  ⟨knownPrefix_reach known sums, fun _ ⟨hle, hnodup, hknown⟩ => le_reach hnodup hle hknown⟩

/-- With more known the cache reaches no less far. -/
theorem reach_mono (h : known ⊆ known') (sums : List String) :
    reach known sums ≤ reach known' sums := by
  obtain ⟨hle, hnodup, hknown⟩ := knownPrefix_reach known sums
  exact le_reach hnodup hle fun s hs => h (hknown s hs)

/-! ### The plan -/

variable (task : Task)

theorem pairwise_stale (known : List String) : (ofTask task known).stale.Pairwise (· < ·) :=
  Text.pairwise_lt_mergeSort (nodup_eraseDups _)

theorem map_sum_skipped (known : List String) :
    (ofTask task known).skipped.map PlannedAction.sum =
      task.checksums.take (reach known task.checksums) := by
  rw [skipped_eq, List.map_take, map_sum_actions]

/-- A plan skips the commands of the longest prefix whose cumulative checksums are known and
pairwise different, and all later ones run.  Each entry holds the place of its command, the checksum
of all scripts up to it and the command.  The stale checksums stand strictly rising; they and those
of the skipped commands are the known ones, and none is both.  Only the set of the known checksums
matters, and with more known no fewer commands are skipped.  If exactly the task's own checksums are
known, all commands are skipped and nothing is stale. -/
theorem ofTask_exact (known : List String) :
    (∃ k, IsGreatest {m | KnownPrefix known task.checksums m} k ∧
      (ofTask task known).actions.length = task.actions.length ∧
      ∀ (i : Nat) action, task.actions[i]? = some action → (ofTask task known).actions[i]? =
        some ⟨i, checksumOf (streamOf (task.scripts.take (i + 1))), action,
          if i < k then .cached else .execute⟩) ∧
    (ofTask task known).stale.Pairwise (· < ·) ∧
    (∀ s, s ∈ known ↔ s ∈ (ofTask task known).stale ∨
      s ∈ (ofTask task known).skipped.map PlannedAction.sum) ∧
    (∀ s ∈ (ofTask task known).stale, s ∉ (ofTask task known).skipped.map PlannedAction.sum) ∧
    (∀ known', (∀ s, s ∈ known ↔ s ∈ known') → ofTask task known = ofTask task known') ∧
    (∀ known', known ⊆ known' → (ofTask task known).cached ≤ (ofTask task known').cached) ∧
    (CollisionFree [task] → (∀ s ∈ task.scripts, s ≠ "") →
      (∀ s, s ∈ known ↔ s ∈ task.checksums) →
        (∀ a ∈ (ofTask task known).actions, a.decision = .cached) ∧
        (ofTask task known).stale = []) := by
  refine ⟨⟨_, reach_isGreatest known task.checksums, length_actions task known, ?_⟩,
    pairwise_stale task known, fun s => ?_, ?_, fun known' => ofTask_congr task, ?_, ?_⟩
  · intro i action haction
    have hi := (List.getElem?_eq_some_iff.1 haction).1
    have hsum : i < task.checksums.length := by simpa using hi
    rw [getElem?_actions, haction, List.getElem?_eq_getElem hsum, task.getElem_checksums]
    rfl
  · rw [map_sum_skipped, mem_stale]
    constructor
    · intro hs
      by_cases hskip : s ∈ task.checksums.take (reach known task.checksums)
      · exact .inr hskip
      · exact .inl ⟨hs, hskip⟩
    · rintro (hs | hs)
      · exact hs.1
      · exact mem_of_mem_take_reach hs
  · rw [map_sum_skipped]
    exact fun s hs => ((mem_stale task).1 hs).2
  · intro known' hsub
    rw [cached_eq, cached_eq, length_skipped, length_skipped]
    exact reach_mono hsub _
  · intro hfree hne hknown
    have hnodup := Task.nodup_checksums hfree List.mem_cons_self hne
    exact ⟨fun _ => decision_eq_cached task hnodup hknown, stale_eq_nil task hnodup hknown⟩

/-- A task of three commands. -/
def steps : Task := ⟨"steps", [⟨"a", "first"⟩, ⟨"b", "second"⟩, ⟨"c", "third"⟩]⟩

/-- The checksums of `steps` at some places. -/
def stepsAt (places : List Nat) : List String := places.filterMap fun i => steps.checksums[i]?

/-- With a gap in what is known the command after the gap runs, and its marker is stale. -/
theorem steps_exact : stepsAt [0] ⊆ stepsAt [2, 0] ∧
    (ofTask steps (stepsAt [0])).cached ≤ (ofTask steps (stepsAt [2, 0])).cached ∧
    (ofTask steps (stepsAt [2, 0])).actions.map PlannedAction.decision =
      [.cached, .execute, .execute] ∧
    CollisionFree [steps] ∧ (∀ s ∈ steps.scripts, s ≠ "") ∧
    (ofTask steps steps.checksums).stale = [] := by
  have hsub : stepsAt [0] ⊆ stepsAt [2, 0] := by
    decide +kernel
  have hfree : CollisionFree [steps] := by decide +kernel
  have hne : ∀ s ∈ steps.scripts, s ≠ "" := by decide
  refine ⟨hsub, (ofTask_exact steps _).2.2.2.2.2.1 _ hsub, ?_, hfree, hne,
    ((ofTask_exact steps _).2.2.2.2.2.2 hfree hne fun _ => Iff.rfl).2⟩
  decide +kernel

end Plan

end Provisioning
