import Mathlib.Data.List.Forall2
import Provisioning.Proofs.Run.Completion
import Provisioning.Proofs.Run.Dispatch

/-!
# A run that succeeded need not be repeated

After a run that came to a good end a host has exactly the markers of the tasks that were submitted,
whatever it had before.  Then every further run of the same tasks, and every dry run, skips all
commands and changes nothing.

* `RunCourse.untouched` : what a run does that finds all markers there;
* `Config.provision_idempotent` : both together, for the tasks of every configuration.
-/

namespace Provisioning

variable {r : Runner} {part : Failing} {root : String} {fs fs' : Files} {ms : List (Moment Files)}
  {tasks : List Task} {ends : Counts → Prop}

/-! ### Where everything is known -/

/-- Whether a deed neither sends a command nor does anything to markers. -/
structure Deed.Inert (r : Runner) (d : Deed) : Prop where
  /-- It does nothing to markers. -/
  ops : d.ops r.settings.cacheRoot = []
  /-- Nor if it fails. -/
  lapse : d.lapse r.settings.cacheRoot = []
  /-- It sends no command. -/
  dispatch : d.dispatch? r = none

/-- Whether a plan for a task skips all of its commands and finds nothing stale. -/
structure Plan.SkipsAll (p : Plan) (task : Task) : Prop where
  /-- It is for the task. -/
  name : p.task = task.name
  /-- It has the commands of the task. -/
  actions : p.actions.map PlannedAction.action = task.actions
  /-- All of them are skipped. -/
  cached : ∀ a ∈ p.actions, a.decision = .cached
  /-- Nothing is stale. -/
  stale : p.stale = []

namespace Plan.SkipsAll

variable {task : Task} {known : List String}

/-- Where exactly the checksums of a task are known, its plan skips all. -/
theorem of_known (hnodup : task.checksums.Nodup)
    (hknown : ∀ s, s ∈ known ↔ s ∈ task.checksums) : (Plan.ofTask task known).SkipsAll task := by
  exact ⟨rfl, Plan.map_action_actions task known,
    fun _ => Plan.decision_eq_cached task hnodup hknown, Plan.stale_eq_nil task hnodup hknown⟩

theorem due_eq_nil {p : Plan} (h : p.SkipsAll task) : p.due = [] := by
  rw [Plan.due, List.filter_eq_nil_iff]
  intro a ha
  simp [h.cached a ha]

theorem counts_eq {p : Plan} (h : p.SkipsAll task) : p.counts = ⟨0, task.actions.length, 0⟩ := by
  have hskipped : p.skipped = p.actions := by
    rw [Plan.skipped, List.filter_eq_self]
    intro a ha
    simp [h.cached a ha]
  rw [Plan.counts, h.due_eq_nil, h.stale, hskipped, ← h.actions, List.length_map]
  rfl

/-- All deeds of a task whose plan skips all are inert. -/
theorem inert (h : (Plan.ofTask task known).SkipsAll task) (r : Runner) {d : Deed}
    (hd : d ∈ task.deeds known) : d.Inert r := by
  rw [Task.deeds_eq, h.due_eq_nil, h.stale, Task.firstDeeds] at hd
  simp only [List.map_nil, List.mem_append, List.mem_cons, List.mem_map, List.not_mem_nil,
    or_false] at hd
  rcases hd with (rfl | ⟨a, -, rfl⟩) | rfl <;> exact ⟨rfl, rfl, rfl⟩

end Plan.SkipsAll

/-- What tasks count for all of whose plans skip all. -/
theorem Task.tally_of_skipsAll (hn : (tasks.map Task.name).Nodup) {inv : Inventory}
    (h : ∀ t ∈ tasks, (Plan.ofTask t (inv.sums t.name)).SkipsAll t) (n : Nat) :
    tally tasks inv ⟨0, n, 0⟩ = ⟨0, n + (tasks.flatMap Task.actions).length, 0⟩ := by
  rw [tally_eq hn]
  induction tasks generalizing n with
  | nil => rfl
  | cons t ts ih =>
    rw [List.forall_mem_cons] at h
    rw [List.map_cons, List.nodup_cons] at hn
    have hadd : (⟨0, n, 0⟩ : Counts) + ⟨0, t.actions.length, 0⟩ =
        ⟨0, n + t.actions.length, 0⟩ := rfl
    rw [List.foldl_cons, h.1.counts_eq, hadd, ih hn.2 h.2, List.flatMap_cons, List.length_append,
      Nat.add_assoc]

/-- An inventory of a host that has exactly the markers of some tasks leads to plans that skip
all. -/
theorem Known.skipsAll {inv : Inventory} (h : Known root fs inv) (hb : fs.Below root)
    (hs : Submittable tasks) (hc : CollisionFree tasks) (hset : fs.Settled root tasks) :
    ∀ t ∈ tasks, (Plan.ofTask t (inv.sums t.name)).SkipsAll t := by
  intro t ht
  refine .of_known (Task.nodup_checksums hc ht (hs.scripts t ht)) fun s => ?_
  rw [h.mem_sums hb, hset t ht]
  rfl

/-! ### Runs that change nothing -/

/-- What passes while nothing is sent about commands or markers, and the markers stay. -/
structure Untouched (fs : Files) (ms : List (Moment Files)) : Prop where
  /-- No command is sent. -/
  dispatched : dispatched ms = []
  /-- Nothing is sent that makes or deletes a file. -/
  sent : effects ms = []
  /-- The markers stay. -/
  markers : ∀ m ∈ ms, m.after.markers = fs.markers

theorem Uneventful.dispatched_eq_nil (h : Uneventful fs ms fs') : dispatched ms = [] := by
  rw [dispatched, acts_quiet h.quiet]
  rfl

/-- A run that finds all markers there changes nothing, and counts all commands as skipped if it
comes to a good end. -/
theorem RunCourse.untouched (h : RunCourse r part tasks fs ms fs' ends)
    (hb : fs.Below r.settings.cacheRoot) (hs : Submittable tasks) (hc : CollisionFree tasks)
    (hset : fs.Settled r.settings.cacheRoot tasks) :
    (dispatched ms = [] ∧ effects ms = [] ∧ fs'.markers = fs.markers) ∧
      ∀ c, ends c → c = ⟨0, (tasks.flatMap Task.actions).length, 0⟩ := by
  cases h with
  | idle h hend =>
    exact ⟨⟨h.dispatched_eq_nil, h.sent, h.markers⟩, fun c hc => absurd hc (hend c)⟩
  | @working inv past ahead known deeds underway hend =>
    have hskips := known.skipsAll hb hs hc hset
    -- no deed has anything to do
    have hinert : ∀ d ∈ past ++ ahead, d.Inert r := by
      intro d hd
      obtain ⟨t, ht, hd⟩ := (Task.mem_itinerary hs.names).1 (deeds ▸ hd)
      exact (hskips t ht).inert r hd
    have hpast : past.flatMap (Deed.ops r.settings.cacheRoot) = [] :=
      List.flatMap_eq_nil_iff.2 fun d hd => (hinert d (List.mem_append_left _ hd)).ops
    have hnext : ∀ d ∈ ahead.head?, d.Inert r := fun d hd =>
      hinert d (List.mem_append_right _ (List.mem_of_head? hd))
    refine ⟨⟨?_, ?_, ?_⟩, fun c hc => ?_⟩
    · have hnone : (past ++ ahead).filterMap (Deed.dispatch? r) = [] :=
        List.filterMap_eq_nil_iff.2 fun d hd => (hinert d hd).dispatch
      exact List.prefix_nil.1 (hnone ▸ underway.dispatched_prefix)
    · obtain ⟨ops, hsent, rfl | ⟨d, hd, rfl | rfl⟩⟩ := underway.sent
      · rw [hsent, hpast]
        rfl
      · rw [hsent, hpast, (hnext d hd).ops]
        rfl
      · rw [hsent, hpast, (hnext d hd).lapse]
        rfl
    · obtain ⟨did, as, bs, hfs, -, -, hhalf⟩ := underway.halfway
      rw [hpast, Files.after_nil] at hfs
      generalize ahead.head? = d? at hhalf hnext
      have hdid : did = [] := by
        cases hhalf with
        | idle | begun => rfl
        | partly _ hd => exact part.eq_nil ((hnext _ rfl).ops ▸ hd)
        | lapsed _ hd => exact part.eq_nil ((hnext _ rfl).lapse ▸ hd)
      rw [hfs, hdid, Files.after_nil]
    · rw [(hend c hc).2, Counts.zero, Task.tally_of_skipsAll hs.names hskips, Nat.zero_add]

/-! ### After a run that succeeded -/

/-- After a run that came to a good end a dry run says that all commands are skipped, if all that
it asks for succeeds. -/
theorem Files.Settled.goes_plan {result : Except RunError (List Plan)}
    (hset : fs.Settled r.settings.cacheRoot tasks) (hb : fs.Below r.settings.cacheRoot)
    (hl : fs.Listable r.settings.cacheRoot) (hs : Submittable tasks) (hc : CollisionFree tasks)
    (h : (r.plan tasks).Goes (Allowed r.settings.cacheRoot part) fs ms (.done result) fs')
    (hfine : ∀ m ∈ ms, m.exchange.Fine) :
    Untouched fs ms ∧ ∃ plans, result = .ok plans ∧ List.Forall₂ Plan.SkipsAll plans tasks := by
  have hidle := uneventful_plan h
  refine ⟨⟨hidle.dispatched_eq_nil, hidle.sent, ?_⟩, ?_⟩
  · exact h.forall_mem fun _ _ _ h₁ => (uneventful_plan h₁).markers
  · obtain ⟨inv, hknown, rfl⟩ := Provisioning.goes_plan h hfine hl
    refine ⟨_, rfl, ?_⟩
    rw [List.forall₂_map_left_iff, List.forall₂_same]
    exact hknown.skipsAll hb hs hc hset

/-- The same of a run, which counts all commands as skipped. -/
theorem Files.Settled.goes_provision {result : Except RunError Counts}
    (hset : fs.Settled r.settings.cacheRoot tasks) (hb : fs.Below r.settings.cacheRoot)
    (hl : fs.Listable r.settings.cacheRoot) (hs : Submittable tasks) (hc : CollisionFree tasks)
    (h : (r.provision tasks).Goes (Allowed r.settings.cacheRoot part) fs ms (.done result) fs')
    (hfine : ∀ m ∈ ms, m.exchange.Fine) :
    Untouched fs ms ∧ result = .ok ⟨0, (tasks.flatMap Task.actions).length, 0⟩ := by
  obtain ⟨⟨hdispatched, hsent, -⟩, hcounts⟩ :=
    (Provisioning.goes_provision h).untouched hb hs hc hset
  refine ⟨⟨hdispatched, hsent, ?_⟩, ?_⟩
  · exact h.forall_mem fun _ _ _ h₁ =>
      ((Provisioning.goes_provision h₁).untouched hb hs hc hset).1.2.2
  · obtain ⟨c, rfl⟩ := goes_provision_fine h hfine hl
    rw [hcounts c rfl]

/-- Provisioning is idempotent, on a host whose listings report each marker at its path.  Whatever
markers it had before: after a run for the tasks of a configuration that came to a good end it has
exactly theirs, and every further run and dry run of which all exchanges are fine skips all commands
and changes nothing. -/
theorem Config.provision_idempotent {config : Config} {rounds : Nat} {root : String}
    {fs₀ fs₁ : Files} {ms : List (Moment Files)} {counts : Counts}
    (hcompile : config.compileWith rounds = .ok tasks) (hc : CollisionFree tasks)
    (hl₀ : fs₀.Legible) (hl₁ : fs₁.Legible) (hr : r.settings.cacheRoot = root)
    (h : (r.provision tasks).Goes (Allowed root part) fs₀ ms (.done (.ok counts)) fs₁) :
    fs₁.Settled root tasks ∧
      (∀ (r' : Runner) ms' result fs', r'.settings.cacheRoot = root →
        (r'.plan tasks).Goes (Allowed root part) fs₁ ms' (.done result) fs' →
        (∀ m ∈ ms', m.exchange.Fine) →
          Untouched fs₁ ms' ∧
            ∃ plans, result = .ok plans ∧ List.Forall₂ Plan.SkipsAll plans tasks) ∧
      ∀ (r' : Runner) ms' result fs', r'.settings.cacheRoot = root →
        (r'.provision tasks).Goes (Allowed root part) fs₁ ms' (.done result) fs' →
        (∀ m ∈ ms', m.exchange.Fine) →
          Untouched fs₁ ms' ∧ result = .ok ⟨0, (tasks.flatMap Task.actions).length, 0⟩ := by
  subst hr
  have hs := config.submittable_of_compile hcompile
  have hcourse := Provisioning.goes_provision h
  -- the first run has listed the cache, so that it held nothing but markers before
  obtain ⟨inv, hknown, -, -⟩ := hcourse.completed rfl
  have hb := hknown.below hl₀
  have hset := hcourse.settled rfl hb hs
  have hreadable := hcourse.readable hs (hknown.readable hb)
  have hlistable := hl₁.listable hreadable
  refine ⟨hset, fun r' ms' result fs' hr' h' hfine => ?_, fun r' ms' result fs' hr' h' hfine => ?_⟩
  · rw [← hr'] at h' hset hreadable hlistable
    exact hset.goes_plan hreadable.below hlistable hs hc h' hfine
  · rw [← hr'] at h' hset hreadable hlistable
    exact hset.goes_provision hreadable.below hlistable hs hc h' hfine

/-- A run, and then a dry run and a run that have nothing to do. -/
theorem Config.greetings_idempotent : ∃ ms counts fs,
    (Runner.byDefault.provision [.greeting]).Goes
        (Allowed Runner.byDefault.settings.cacheRoot .torn) ∅ ms (.done (.ok counts)) fs ∧
      fs.Settled Runner.byDefault.settings.cacheRoot [.greeting] ∧
      (∃ ms' plans fs', (Runner.byDefault.plan [.greeting]).Goes
        (Allowed Runner.byDefault.settings.cacheRoot .torn) fs ms' (.done (.ok plans)) fs' ∧
          Untouched fs ms' ∧ List.Forall₂ Plan.SkipsAll plans [.greeting]) ∧
      ∃ ms' fs', (Runner.byDefault.provision [.greeting]).Goes
        (Allowed Runner.byDefault.settings.cacheRoot .torn) fs ms' (.done (.ok ⟨0, 2, 0⟩)) fs' ∧
          Untouched fs ms' := by
  obtain ⟨ms, counts, fs, -, hgoes⟩ := exists_goes_provision Runner.byDefault .torn [.greeting]
    Runner.legible_byDefault (.empty _) Files.finite_markers_empty
  have hbelow : fs.Below Runner.byDefault.settings.cacheRoot :=
    (Provisioning.goes_provision hgoes).files_below Task.submittable_greeting (Files.below_empty _)
  obtain ⟨hset, hplan, hprovision⟩ := Config.provision_idempotent Config.compileWith_greetings
    (Task.collisionFree_greetings.mono (by simp))
    (Inventory.legible_of_below Runner.legible_byDefault (Files.below_empty _))
    (Inventory.legible_of_below Runner.legible_byDefault hbelow) rfl hgoes
  have hfin : fs.markers.Finite :=
    hgoes.invariant (fun hw => hw.finite_markers) Files.finite_markers_empty
  refine ⟨ms, counts, fs, hgoes, hset, ?_, ?_⟩
  · obtain ⟨ms', result, fs', hgoes', hfine⟩ := Script.exists_goes_fine _ .torn hfin
      (Runner.byDefault.plan [.greeting])
    obtain ⟨huntouched, plans, rfl, hskips⟩ := hplan _ _ _ _ rfl hgoes' hfine
    exact ⟨ms', plans, fs', hgoes', huntouched, hskips⟩
  · obtain ⟨ms', result, fs', hgoes', hfine⟩ := Script.exists_goes_fine _ .torn hfin
      (Runner.byDefault.provision [.greeting])
    obtain ⟨huntouched, rfl⟩ := hprovision _ _ _ _ rfl hgoes' hfine
    exact ⟨ms', fs', hgoes', huntouched⟩

end Provisioning
