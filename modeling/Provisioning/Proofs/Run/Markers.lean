import Provisioning.Proofs.Run.Progress

/-!
# What a run does to the markers of a task

The markers of a task change by the deeds of that task alone, in their order.  After its first `l`
deeds a task has the markers that it had, as long as the stale ones are not swept away; from then
on it has exactly those of its first `l - 2` commands (`Task.stage`).

* `Deed.sums_after_ops` : what one deed does, to the markers of its own task and of another;
* `Task.foldl_record` : what the first deeds of a task do, by one step for each deed;
* `Underway.exists_reached` : what a run under way has done to all tasks.
-/

namespace Provisioning

/-- The checksums under which a task has markers of either kind. -/
abbrev Tabs := Mark → Set String

namespace Deed

/-- What a deed does to the markers of its task. -/
def record (σ : Tabs) : Deed → Tabs
  | sweep _ stale => fun
    | .success => σ .success \ {s | s ∈ stale}
    | .failure => σ .failure
  | execute _ a => fun
    | .success => insert a.sum (σ .success)
    | .failure => σ .failure \ {a.sum}
  | _ => σ

/-- Whether the names in a deed are parts of paths. -/
def Proper : Deed → Prop
  | execute t a => Slashless t ∧ Slashless a.sum
  | makeDir t | skip t _ | sweep t _ => Slashless t

theorem Proper.slashless {d : Deed} (h : d.Proper) : Slashless d.task := by
  cases d with
  | execute => exact h.1
  | _ => exact h

variable {root t : String} {fs : Files}

/-- The markers of other tasks stay. -/
theorem sums_of_ne {d : Deed} {did : List FileOp}
    (hdid : ∀ op ∈ did, op ∈ d.ops root ∨ op ∈ d.lapse root) (hd : Slashless d.task)
    (ht : Slashless t) (hne : d.task ≠ t) (m : Mark) :
    (fs.after did).sums root m t = fs.sums root m t := by
  ext s
  refine and_congr_right fun _ => Files.mem_after_of_forall_ne fun op hop => ?_
  obtain ⟨m', s', hpath⟩ := path_of_mem_ops root (hdid op hop)
  rw [hpath]
  intro h
  exact hne ((Mark.path_inj hd ht).1 h).2.1

/-- A deed that is done has done what it does. -/
theorem sums_ops {d : Deed} (hd : d.Proper) (m : Mark) :
    (fs.after (d.ops root)).sums root m d.task = d.record (fun m => fs.sums root m d.task) m := by
  cases d with
  | makeDir t => rfl
  | skip t a => rfl
  | sweep t stale =>
    have hd : Slashless t := hd
    show (fs.after (stale.map _)).sums root m t = _
    rw [Files.sums_removes hd m hd]
    cases m <;> simp [record, task]
  | execute t a =>
    obtain ⟨hd, hs⟩ := hd
    rw [ops, Files.after_cons, Files.after_cons, Files.after_nil, task, Files.sums_remove hd m hd,
      Files.sums_write hd hs m hd]
    cases m <;> simp [record]

/-- A deed that is done has done to the markers of a task what it does, or nothing if it is another
task's. -/
theorem sums_after_ops {d : Deed} (hd : d.Proper) (ht : Slashless t) :
    (fun m => (fs.after (d.ops root)).sums root m t) =
      if d.task = t then d.record fun m => fs.sums root m t else fun m => fs.sums root m t := by
  funext m
  split
  · next h =>
    subst h
    exact sums_ops hd m
  · next h => exact sums_of_ne (fun op hop => .inl hop) hd.slashless ht h m

/-- What many deeds do to the markers of one task. -/
theorem sums_flatMap_ops {ds : List Deed} (hds : ∀ d ∈ ds, d.Proper) (ht : Slashless t) (m : Mark) :
    (fs.after (ds.flatMap (ops root))).sums root m t =
      (ds.filter (·.task = t)).foldl record (fun m => fs.sums root m t) m := by
  induction ds generalizing fs with
  | nil => rfl
  | cons d ds ih =>
    rw [List.forall_mem_cons] at hds
    rw [List.flatMap_cons, Files.after_append, ih hds.2, sums_after_ops hds.1 ht]
    split
    · next h => rw [List.filter_cons_of_pos (by simpa using h), List.foldl_cons]
    · next h => rw [List.filter_cons_of_neg (by simpa using h)]

end Deed

/-! ### The deeds of one task -/

namespace Task

variable (task : Task) (known : List String)

/-- The deeds of a task before the sweep. -/
def firstDeeds : List Deed :=
  .makeDir task.name :: (Plan.ofTask task known).skipped.map (.skip task.name)

theorem deeds_eq :
    task.deeds known = task.firstDeeds known ++ .sweep task.name (Plan.ofTask task known).stale ::
      (Plan.ofTask task known).due.map (.execute task.name) := rfl

/-- How far the cache reaches for a task. -/
abbrev reach : Nat := Plan.reach known task.checksums

theorem reach_le : task.reach known ≤ task.actions.length := by
  simpa using Plan.reach_le known task.checksums

theorem length_firstDeeds : (task.firstDeeds known).length = task.reach known + 1 := by
  rw [firstDeeds, List.length_cons, List.length_map, Plan.length_skipped]

theorem length_deeds : (task.deeds known).length = task.actions.length + 2 := by
  have hle := task.reach_le known
  rw [deeds_eq, List.length_append, length_firstDeeds, List.length_cons, List.length_map,
    Plan.due_eq, List.length_drop, Plan.length_actions, reach] at *
  omega

theorem take_deeds_of_le {l : Nat} (h : l ≤ task.reach known + 1) :
    (task.deeds known).take l = (task.firstDeeds known).take l := by
  rw [deeds_eq, List.take_append_of_le_length]
  rw [length_firstDeeds]
  exact h

theorem take_deeds_of_gt {l : Nat} (h : task.reach known + 1 < l) :
    (task.deeds known).take l =
      task.firstDeeds known ++ .sweep task.name (Plan.ofTask task known).stale ::
        ((Plan.ofTask task known).due.take (l - 2 - task.reach known)).map
          (.execute task.name) := by
  have hl : l = (task.firstDeeds known).length + (l - 2 - task.reach known + 1) := by
    rw [length_firstDeeds]
    omega
  conv =>
    lhs
    rw [hl, deeds_eq]
  rw [List.take_length_add_append, List.take_succ_cons, List.map_take]

theorem skip_mem_deeds {t : String} {a : PlannedAction} :
    .skip t a ∈ task.deeds known ↔ t = task.name ∧ a ∈ (Plan.ofTask task known).skipped := by
  simp [deeds_eq, firstDeeds, eq_comm, and_comm]

theorem sweep_mem_deeds {t : String} {stale : List String} :
    .sweep t stale ∈ task.deeds known ↔
      t = task.name ∧ stale = (Plan.ofTask task known).stale := by
  simp [deeds_eq, firstDeeds]

theorem execute_mem_deeds {t : String} {a : PlannedAction} :
    .execute t a ∈ task.deeds known ↔ t = task.name ∧ a ∈ (Plan.ofTask task known).due := by
  simp [deeds_eq, firstDeeds, eq_comm, and_comm]

/-- Executions come after the sweep, in the order of the commands. -/
theorem getElem?_deeds_execute {l : Nat} {t : String} {a : PlannedAction}
    (h : (task.deeds known)[l]? = some (.execute t a)) :
    ∃ i, l = i + 2 ∧ task.reach known ≤ i ∧ (Plan.ofTask task known).actions[i]? = some a := by
  rw [deeds_eq] at h
  rcases Nat.lt_or_ge l (task.firstDeeds known).length with hl | hl
  · rw [List.getElem?_append_left hl] at h
    have hm := List.mem_of_getElem? h
    simp [firstDeeds] at hm
  · rw [List.getElem?_append_right hl, length_firstDeeds] at h
    rw [length_firstDeeds] at hl
    obtain ⟨k, rfl⟩ := Nat.exists_eq_add_of_le hl
    cases k with
    | zero => simp at h
    | succ k =>
      rw [Nat.add_sub_cancel_left, List.getElem?_cons_succ, List.getElem?_map,
        Option.map_eq_some_iff] at h
      obtain ⟨a', ha, he⟩ := h
      obtain ⟨-, rfl⟩ := Deed.execute.inj he
      rw [Plan.due_eq, List.getElem?_drop] at ha
      exact ⟨task.reach known + k, by omega, Nat.le_add_right _ _, ha⟩

/-- The markers of a task after its first `l` deeds. -/
def stage (σ : Tabs) (l : Nat) : Tabs
  | .success =>
    if l ≤ task.reach known + 1 then σ .success else {s | s ∈ task.checksums.take (l - 2)}
  | .failure => σ .failure \ {s | s ∈ (task.checksums.take (l - 2)).drop (task.reach known)}

/-- Nothing happens to the markers before the sweep. -/
theorem foldl_record_firstDeeds (σ : Tabs) {ds : List Deed}
    (h : ∀ d ∈ ds, d ∈ task.firstDeeds known) : ds.foldl Deed.record σ = σ := by
  induction ds with
  | nil => rfl
  | cons d ds ih =>
    rw [List.forall_mem_cons] at h
    have hd : Deed.record σ d = σ := by
      rcases List.mem_cons.1 h.1 with rfl | hd
      · rfl
      · obtain ⟨a, -, rfl⟩ := List.mem_map.1 hd
        rfl
    rw [List.foldl_cons, hd, ih h.2]

theorem foldl_record_execute (σ : Tabs) (t : String) (as : List PlannedAction) (m : Mark) :
    (as.map (.execute t)).foldl Deed.record σ m =
      match m with
      | .success => σ .success ∪ {s | s ∈ as.map PlannedAction.sum}
      | .failure => σ .failure \ {s | s ∈ as.map PlannedAction.sum} := by
  induction as generalizing σ with
  | nil => cases m <;> ext s <;> simp
  | cons a as ih =>
    rw [List.map_cons, List.foldl_cons, ih]
    cases m <;> ext s <;> simp [Deed.record, or_assoc, or_left_comm, and_assoc]

variable {known}

/-- What the first deeds of a task do to its markers. -/
theorem foldl_record (σ : Tabs) (hknown : ∀ s, s ∈ known ↔ s ∈ σ .success) (l : Nat) :
    ((task.deeds known).take l).foldl Deed.record σ = task.stage known σ l := by
  rcases Nat.lt_or_ge (task.reach known + 1) l with h | h
  · have hdue : ((Plan.ofTask task known).due.take (l - 2 - task.reach known)).map
        PlannedAction.sum = (task.checksums.take (l - 2)).drop (task.reach known) := by
      rw [List.map_take, Plan.map_sum_due, List.drop_take]
    rw [take_deeds_of_gt task known h, List.foldl_append,
      foldl_record_firstDeeds task known σ fun _ hd => hd, List.foldl_cons]
    funext m
    rw [foldl_record_execute, hdue]
    cases m with
    | success =>
      -- the sweep leaves the markers of the commands skipped, and the executions add theirs
      have hle : task.reach known ≤ l - 2 := by omega
      have hsweep : ∀ s, s ∈ σ .success ∧ s ∉ (Plan.ofTask task known).stale ↔
          s ∈ (task.checksums.take (l - 2)).take (task.reach known) := by
        intro s
        rw [List.take_take, Nat.min_eq_left hle, Plan.mem_stale, ← hknown]
        constructor
        · rintro ⟨hs, hstale⟩
          exact Decidable.not_not.1 fun hn => hstale ⟨hs, hn⟩
        · intro hs
          exact ⟨Plan.mem_of_mem_take_reach hs, fun hn => hn.2 hs⟩
      rw [stage, if_neg (Nat.not_le.2 h)]
      ext s
      show (s ∈ σ .success ∧ s ∉ (Plan.ofTask task known).stale) ∨ _ ↔ _
      rw [hsweep]
      conv =>
        rhs
        rw [← List.take_append_drop (task.reach known) (task.checksums.take (l - 2))]
      exact List.mem_append.symm
    | failure => rfl
  · -- the sweep is not reached
    rw [take_deeds_of_le task known h,
      foldl_record_firstDeeds task known σ fun _ hd => List.mem_of_mem_take hd]
    funext m
    cases m with
    | success => rw [stage, if_pos h]
    | failure =>
      have hnil : (task.checksums.take (l - 2)).drop (task.reach known) = [] :=
        List.drop_eq_nil_of_le (by simp; omega)
      rw [stage, hnil]
      ext s
      simp

end Task

/-! ### Runs under way -/

variable {r : Runner} {part : Failing} {fs fs' : Files} {ms : List (Moment Files)}
  {past ahead : List Deed}

theorem Shown.append {ds ds' : List Deed} {as as' : List Act} (h : Shown r ds as)
    (h' : Shown r ds' as') : Shown r (ds ++ ds') (as ++ as') := by
  induction ds generalizing as with
  | nil =>
    rw [Shown] at h
    subst h
    exact h'
  | cons d ds ih =>
    obtain ⟨bs, cs, rfl, hbs, hcs⟩ := h
    exact ⟨bs, cs ++ as', List.append_assoc _ _ _, hbs, ih hcs⟩

theorem Shown.singleton {d : Deed} {as : List Act} (h : d.Shows r as) : Shown r [d] as :=
  ⟨as, [], (List.append_nil _).symm, h, rfl⟩

/-- The markers of a task after some deeds. -/
def reached (root : String) (fs : Files) (ds : List Deed) (t : String) : Tabs :=
  (ds.filter (·.task = t)).foldl Deed.record fun m => fs.sums root m t

theorem reached_append_singleton {root : String} {ds : List Deed} {d : Deed} {t : String} :
    reached root fs (ds ++ [d]) t =
      if d.task = t then d.record (reached root fs ds t) else reached root fs ds t := by
  rw [reached, List.filter_append, List.foldl_append]
  split
  · next h => rw [List.filter_cons_of_pos (by simpa using h)]; rfl
  · next h => rw [List.filter_cons_of_neg (by simpa using h)]; rfl

/-- Whatever a script leaves done, no marker of success is new but that of a command. -/
theorem Deed.mem_sums_success {root : String} {d : Deed} {did : List FileOp}
    (hdid : ∀ op ∈ did, op ∈ d.ops root) (hd : Slashless d.task) {t s : String} (ht : Slashless t)
    (h : s ∈ (fs.after did).sums root .success t) :
    s ∈ fs.sums root .success t ∨ ∃ a, d = .execute t a ∧ s = a.sum := by
  rcases Files.mem_or_write_mem_of_mem_after h.2 with hf | hw
  · exact .inl ⟨h.1, hf⟩
  · have hop := hdid _ hw
    cases d with
    | makeDir | skip => simp [ops] at hop
    | sweep => simp [ops] at hop
    | execute t' a =>
      simp only [ops, List.mem_cons, FileOp.write.injEq, List.not_mem_nil, reduceCtorEq,
        or_false] at hop
      obtain ⟨-, rfl, rfl⟩ := (Mark.path_inj ht hd).1 hop
      exact .inr ⟨a, rfl, rfl⟩

/-- A command that fails leaves no new marker of success. -/
theorem Deed.mem_sums_success_of_lapse {root : String} {d : Deed} {did : List FileOp}
    (hdid : ∀ op ∈ did, op ∈ d.lapse root) (hd : Slashless d.task) {t s : String}
    (ht : Slashless t) (h : s ∈ (fs.after did).sums root .success t) :
    s ∈ fs.sums root .success t := by
  rcases Files.mem_or_write_mem_of_mem_after h.2 with hf | hw
  · exact ⟨h.1, hf⟩
  · have hop := hdid _ hw
    cases d with
    | execute t' a =>
      simp only [lapse, List.mem_cons, FileOp.write.injEq, List.not_mem_nil, or_false] at hop
      exact absurd ((Mark.path_inj ht hd).1 hop).1 (by decide)
    | _ => simp [lapse] at hop

/-- A run under way has the markers of the deeds done, but for what is half done. -/
theorem Underway.exists_files (h : Underway r part past ahead fs ms fs')
    (hp : ∀ d ∈ past, d.Proper) :
    ∃ (fs₁ : Files) (did : List FileOp) (as bs : List Act),
      (∀ t, Slashless t → ∀ m, fs₁.sums r.settings.cacheRoot m t =
        reached r.settings.cacheRoot fs past t m) ∧
      (∀ m t, fs'.sums r.settings.cacheRoot m t = (fs₁.after did).sums r.settings.cacheRoot m t) ∧
      acts (exchanges ms) = as ++ bs ∧ Shown r past as ∧
        Deed.Halfway r part ahead.head? did bs := by
  obtain ⟨did, as, bs, hfs, hacts, hshown, hhalf⟩ := h.halfway
  refine ⟨fs.markers.after (past.flatMap (Deed.ops r.settings.cacheRoot)), did, as, bs,
    fun t ht m => ?_, fun m t => ?_, hacts, hshown, hhalf⟩
  · rw [Deed.sums_flatMap_ops hp ht, reached]
    simp only [Files.sums_markers]
  · rw [← hfs, Files.sums_markers]

/-- Whatever a run has done or left half done, its markers of success are those of deeds that show
as done. -/
theorem Underway.exists_reached (h : Underway r part past ahead fs ms fs')
    (hp : ∀ d ∈ past ++ ahead, d.Proper) :
    ∃ done as bs, done <+: past ++ ahead ∧ acts (exchanges ms) = as ++ bs ∧ Shown r done as ∧
      ∀ t, Slashless t → fs'.sums r.settings.cacheRoot .success t ⊆
        reached r.settings.cacheRoot fs done t .success := by
  obtain ⟨fs₁, did, as, bs, hfs₁, hfs', hacts, hshown, hhalf⟩ :=
    h.exists_files fun d hd => hp d (List.mem_append_left _ hd)
  have hpast : did = [] → ∀ t, Slashless t → fs'.sums r.settings.cacheRoot .success t ⊆
      reached r.settings.cacheRoot fs past t .success := by
    rintro rfl t ht
    rw [hfs', Files.after_nil, hfs₁ t ht]
  generalize hhead : ahead.head? = d? at hhalf
  cases hhalf with
  | idle => exact ⟨past, as, [], List.prefix_append _ _, hacts, hshown, hpast rfl⟩
  | begun hb => exact ⟨past, as, _, List.prefix_append _ _, hacts, hshown, hpast rfl⟩
  | @partly d _ _ hs hd =>
    obtain ⟨rest, rfl⟩ := List.head?_eq_some_iff.1 hhead
    have hproper : d.Proper := hp d (by simp)
    -- a part of the deed makes no marker of success but that of its command
    have hnew : ∀ t, Slashless t → ∀ s ∈ fs'.sums r.settings.cacheRoot .success t,
        s ∈ reached r.settings.cacheRoot fs past t .success ∨
          ∃ a, d = .execute t a ∧ s = a.sum := by
      intro t ht s hs
      rw [hfs'] at hs
      rw [← hfs₁ t ht]
      exact Deed.mem_sums_success (fun op hop => (part.sublist hd).subset hop) hproper.slashless
        ht hs
    by_cases hexec : ∃ t a, d = .execute t a
    · -- its command ended well, so it may count as done
      obtain ⟨t', a, rfl⟩ := hexec
      refine ⟨past ++ [.execute t' a], as ++ bs, [], ⟨rest, by simp⟩, by simpa using hacts,
        hshown.append (.singleton hs), fun t ht s hs => ?_⟩
      rw [reached_append_singleton]
      rcases hnew t ht s hs with hs | ⟨a', he, rfl⟩
      · split
        · exact .inr hs
        · exact hs
      · cases he
        split
        · exact .inl rfl
        · exact absurd rfl ‹_›
    · -- a deed of another kind only takes markers away
      refine ⟨past, as, bs, List.prefix_append _ _, hacts, hshown, fun t ht s hs => ?_⟩
      refine (hnew t ht s hs).resolve_right ?_
      rintro ⟨a, rfl, -⟩
      exact hexec ⟨t, a, rfl⟩
  | @lapsed d _ _ hb hd =>
    obtain ⟨rest, rfl⟩ := List.head?_eq_some_iff.1 hhead
    have hproper : d.Proper := hp d (by simp)
    refine ⟨past, as, _, List.prefix_append _ _, hacts, hshown, fun t ht s hs => ?_⟩
    rw [hfs'] at hs
    rw [← hfs₁ t ht]
    exact Deed.mem_sums_success_of_lapse (fun op hop => (part.sublist hd).subset hop)
      hproper.slashless ht hs

/-- A host has exactly the markers of some deeds that are done, but for a marker of failure of the
command that is next. -/
def HasExactly (root : String) (fs fs' : Files) (done rest : List Deed) : Prop :=
  ∀ t, Slashless t → fs'.sums root .success t = reached root fs done t .success ∧
    (fs'.sums root .failure t = reached root fs done t .failure ∨
      ∃ a, rest.head? = some (.execute t a) ∧
        fs'.sums root .failure t = insert a.sum (reached root fs done t .failure))

/-- Where every script does all of its work or none, a run has exactly the markers of the deeds it
has done. -/
theorem Underway.exists_hasExactly (h : Underway r .whole past ahead fs ms fs')
    (hp : ∀ d ∈ past ++ ahead, d.Proper) :
    ∃ done rest, past ++ ahead = done ++ rest ∧ past <+: done ∧
      HasExactly r.settings.cacheRoot fs fs' done rest := by
  obtain ⟨fs₁, did, as, bs, hfs₁, hfs', -, -, hhalf⟩ :=
    h.exists_files fun d hd => hp d (List.mem_append_left _ hd)
  have hpast : did = [] → ∀ t, Slashless t → ∀ m, fs'.sums r.settings.cacheRoot m t =
      reached r.settings.cacheRoot fs past t m := by
    rintro rfl t ht m
    rw [hfs', Files.after_nil, hfs₁ t ht]
  have hnothing : did = [] → ∃ done rest, past ++ ahead = done ++ rest ∧ past <+: done ∧
      HasExactly r.settings.cacheRoot fs fs' done rest := fun hdid =>
    ⟨past, ahead, rfl, List.prefix_rfl, fun t ht => ⟨hpast hdid t ht _, .inl (hpast hdid t ht _)⟩⟩
  generalize hhead : ahead.head? = d? at hhalf
  cases hhalf with
  | idle => exact hnothing rfl
  | begun hb => exact hnothing rfl
  | @partly d _ _ hs hd =>
    obtain ⟨rest, rfl⟩ := List.head?_eq_some_iff.1 hhead
    have hproper : d.Proper := hp d (by simp)
    rcases hd with hd | rfl
    · exact hnothing hd
    · -- the failure was reported after all was done, so the deed is done
      have hdone : ∀ t, Slashless t → ∀ m, fs'.sums r.settings.cacheRoot m t =
          reached r.settings.cacheRoot fs (past ++ [d]) t m := by
        intro t ht m
        have hfs₁ : (fun m => fs₁.sums r.settings.cacheRoot m t) =
          reached r.settings.cacheRoot fs past t := funext (hfs₁ t ht)
        rw [hfs', congrFun (Deed.sums_after_ops hproper ht) m, hfs₁, reached_append_singleton]
      exact ⟨past ++ [d], rest, by simp, List.prefix_append _ _,
        fun t ht => ⟨hdone t ht _, .inl (hdone t ht _)⟩⟩
  | @lapsed d _ _ hb hd =>
    obtain ⟨rest, rfl⟩ := List.head?_eq_some_iff.1 hhead
    have hproper : d.Proper := hp d (by simp)
    rcases hd with hd | rfl
    · exact hnothing hd
    cases d with
    | execute t' a =>
      obtain ⟨ht', hs⟩ := hproper
      have hwrite : ∀ t, Slashless t → ∀ m, fs'.sums r.settings.cacheRoot m t =
          if m = .failure ∧ t = t' then insert a.sum (fs₁.sums r.settings.cacheRoot m t)
          else fs₁.sums r.settings.cacheRoot m t := by
        intro t ht m
        rw [hfs']
        exact Files.sums_write ht' hs m ht
      refine ⟨past, _, rfl, List.prefix_rfl, fun t ht => ?_⟩
      rw [hwrite t ht, hwrite t ht, if_neg (by simp), hfs₁ t ht, hfs₁ t ht]
      refine ⟨rfl, ?_⟩
      by_cases h : t = t'
      · -- the command that failed is marked as such, and is the next
        subst h
        exact .inr ⟨a, rfl, if_pos ⟨rfl, rfl⟩⟩
      · exact .inl (if_neg fun hn => h hn.2)
    | _ => exact hnothing rfl

end Provisioning
