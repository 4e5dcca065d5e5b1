import Provisioning.Proofs.Run.Completion
import Provisioning.Proofs.Run.Conclusion
import Provisioning.Proofs.Run.Moves

/-!
# What a run counts

When a run is over its counts are told: how many commands were executed and how many skipped, and
how many markers were deleted.  `Counts.observed` counts the same from outside, by what passed.
Each deed that is done counts for what it is, and so does each task; but what a task has done that
failed halfway is not counted.

* `Deed.Concludes.observed` : what a deed that is done counts for;
* `Runner.counts_observed` : the counts of a run are those of all that passed before the task that
  failed, and of all that passed if none did;
* `Runner.halfway_uncounted` : what passed in the task that failed may have counted for something.
-/

namespace Provisioning

/-! ### Counting from outside -/

/-- Whether a script makes a marker of success. -/
def Shell.marksSuccess (script : String) : Bool :=
  (effect script).any fun
    | .write p => decide (Files.IsListed p)
    | .remove _ => false

/-- Whether the next script that is sent makes a marker of success and ends well. -/
def acceptance : List Exchange → Bool
  | .asked call reply :: _ => reply.succeeded && Shell.marksSuccess call.shell
  | _ :: xs => acceptance xs
  | [] => false

/-- What an exchange counts for, given what follows it.  A command counts as executed if its script
ended well and the marker of its success was accepted. -/
def Exchange.counts : Exchange → List Exchange → Counts
  | told (.commandCached ..), _ => ⟨0, 1, 0⟩
  | told (.cacheInvalidated _ sums), _ => ⟨0, 0, sums.length⟩
  | told (.commandStarted ..), .asked _ reply :: xs =>
    if reply.succeeded && acceptance xs then ⟨1, 0, 0⟩ else .zero
  | _, _ => .zero

/-- What all that passes counts for. -/
def Counts.observed : List Exchange → Counts
  | [] => .zero
  | x :: xs => x.counts xs + observed xs

/-- Whether an exchange is one of those that pass while the output of a command is told of and
logged. -/
def Exchange.Reports : Exchange → Prop
  | told (.commandPrinted ..) | told (.logFailed ..) | logged _ _ => True
  | _ => False

theorem Reported.reports {t dir sum : String} {reply : Reply} {xs : List Exchange}
    (h : Reported t dir sum reply xs) : ∀ x ∈ xs, x.Reports := by
  cases h with
  | refused e => simp
  | logged s => simp [or_imp, forall_and, Exchange.Reports]
  | unlogged s e => simp [or_imp, forall_and, Exchange.Reports]

theorem Exchange.Reports.counts_eq {x : Exchange} (h : x.Reports) (xs : List Exchange) :
    x.counts xs = .zero := by
  unfold Exchange.Reports at h
  split at h
  · rfl
  · rfl
  · rfl
  · exact absurd h id

theorem acceptance_append {xs : List Exchange} (h : ∀ x ∈ xs, x.Reports) (ys : List Exchange) :
    acceptance (xs ++ ys) = acceptance ys := by
  induction xs with
  | nil => rfl
  | cons x xs ih =>
    rw [List.forall_mem_cons] at h
    rw [List.cons_append, acceptance, ih h.2]
    rintro call reply rfl
    exact h.1

/-- What is told in the end changes nothing about what passed before. -/
theorem acceptance_append_told (xs : List Exchange) (what : Happening) :
    acceptance (xs ++ [.told what]) = acceptance xs := by
  induction xs with
  | nil => rfl
  | cons x xs ih => cases x <;> simp [acceptance, ih]

theorem Exchange.counts_append_told (x : Exchange) (xs : List Exchange) (what : Happening) :
    x.counts (xs ++ [.told what]) = x.counts xs := by
  cases x with
  | told started =>
    cases started with
    | commandStarted t i sum label =>
      cases xs with
      | nil => rfl
      | cons y ys => cases y <;> simp [counts, acceptance_append_told]
    | _ => rfl
  | _ => rfl

namespace Counts

/-- What counts for nothing, whatever follows, makes no difference. -/
theorem observed_append {xs : List Exchange} (h : ∀ x ∈ xs, ∀ zs, x.counts zs = .zero)
    (ys : List Exchange) : observed (xs ++ ys) = observed ys := by
  induction xs with
  | nil => rfl
  | cons x xs ih =>
    rw [List.forall_mem_cons] at h
    rw [List.cons_append, observed, h.1, zero_add, ih h.2]

theorem observed_asked (call : Call) (reply : Reply) (xs : List Exchange) :
    observed (.asked call reply :: xs) = observed xs := zero_add _

theorem observed_append_told (xs : List Exchange) (what : Happening) :
    observed (xs ++ [.told what]) = observed xs + observed [.told what] := by
  induction xs with
  | nil => exact (zero_add _).symm
  | cons x xs ih =>
    rw [List.cons_append, observed, ih, x.counts_append_told, ← add_assoc]
    rfl

end Counts

/-! ### What deeds count for -/

namespace Deed

/-- What a deed counts for. -/
def counts : Deed → Counts
  | makeDir _ => .zero
  | skip _ _ => ⟨0, 1, 0⟩
  | sweep _ stale => ⟨0, 0, stale.length⟩
  | execute _ _ => ⟨1, 0, 0⟩

/-- What deeds count for together. -/
def total : List Deed → Counts
  | [] => .zero
  | d :: ds => d.counts + total ds

theorem total_append (ds es : List Deed) : total (ds ++ es) = total ds + total es := by
  induction ds with
  | nil => rw [List.nil_append, total, Counts.zero_add]
  | cons d ds ih => rw [List.cons_append, total, total, ih, Counts.add_assoc]

/-- The deeds of a task count for what its plan says. -/
theorem total_deeds (task : Task) (known : List String) :
    total (task.deeds known) = (Plan.ofTask task known).counts := by
  have hskips : ∀ (t : String) (as : List PlannedAction),
      total (as.map (.skip t)) = ⟨0, as.length, 0⟩ := by
    intro t as
    induction as with
    | nil => rfl
    | cons a as ih => simp [total, ih, counts, Counts.add_def, Nat.add_comm]
  have hexecutes : ∀ (t : String) (as : List PlannedAction),
      total (as.map (.execute t)) = ⟨as.length, 0, 0⟩ := by
    intro t as
    induction as with
    | nil => rfl
    | cons a as ih => simp [total, ih, counts, Counts.add_def, Nat.add_comm]
  simp [Task.deeds, total, total_append, hskips, hexecutes, counts, Counts.add_def, Counts.zero,
    Plan.counts]

/-- What a deed counts for that came to some result: one that failed counts for nothing. -/
def credit (d : Deed) : Except RunError Unit → Counts
  | .ok _ => d.counts
  | .error _ => .zero

end Deed

variable {r : Runner}

theorem Shell.marksSuccess_doneScript (dir sum script : String) :
    marksSuccess (Runner.doneScript dir sum script) := by
  have hlisted : Files.IsListed (Cache.donePath dir sum) := Files.isListed_success _ _
  simp [marksSuccess, effect_doneScript, hlisted]

/-- The script of a command counts by how it ended and by the script that is sent next. -/
theorem Reported.observed {t dir : String} {a : PlannedAction} {reply : Reply}
    {xs : List Exchange} (h : Reported t dir a.sum reply xs) (call call' : Call) (marked : Reply)
    (ys : List Exchange) :
    Counts.observed (.told (.commandStarted t a.index a.sum a.action.label) ::
      .asked call reply :: (xs ++ [.told (Runner.finished t a ⟨reply.exit, reply.millis⟩),
        .asked call' marked]) ++ ys) =
      (if reply.succeeded && (marked.succeeded && Shell.marksSuccess call'.shell) then ⟨1, 0, 0⟩
        else .zero) + Counts.observed ys := by
  have hfinished : ∀ zs,
      (Exchange.told (Runner.finished t a ⟨reply.exit, reply.millis⟩)).counts zs = .zero := by
    intro zs
    rw [Runner.finished]
    split <;> rfl
  have hxs : ∀ zs, Counts.observed (xs ++ zs) = Counts.observed zs :=
    Counts.observed_append fun x hx => (h.reports x hx).counts_eq
  -- what is told of the end of the command does not count, and then comes the next script
  have hrest : Counts.observed (.told (Runner.finished t a ⟨reply.exit, reply.millis⟩) ::
      .asked call' marked :: ys) = Counts.observed ys := by
    rw [Counts.observed, hfinished, Counts.zero_add, Counts.observed_asked]
  have hnext : acceptance (xs ++ .told (Runner.finished t a ⟨reply.exit, reply.millis⟩) ::
      .asked call' marked :: ys) = (marked.succeeded && Shell.marksSuccess call'.shell) :=
    acceptance_append h.reports _
  simp only [List.cons_append, List.append_assoc, List.nil_append]
  rw [Counts.observed, Exchange.counts, hnext, Counts.observed_asked, hxs, hrest]

/-- A deed that is done counts for what it is, and one that failed for nothing. -/
theorem Deed.Concludes.observed {d : Deed} {xs : List Exchange} {res : Except RunError Unit}
    (h : d.Concludes r xs res) (ys : List Exchange) :
    Counts.observed (xs ++ ys) = d.credit res + Counts.observed ys := by
  cases h with
  | makeDir t reply =>
    cases bookkept t "create cache directory" reply <;> rfl
  | skip t a => rfl
  | clean t => exact (Counts.zero_add _).symm
  | swept hne h => exact Counts.zero_add _
  | unswept hne h => rfl
  | @executed t a reply xs reported h marked =>
    have hreply : reply.succeeded := Reply.succeeded_iff.2 (Runner.verdict_eq_ok_iff.1 h)
    rw [reported.observed, hreply, Shell.marksSuccess_doneScript]
    cases hb : bookkept t "write success marker" marked with
    | ok u => simp [bookkept_eq_ok_iff.1 hb, credit, counts]
    | error e =>
      have hmarked : marked.succeeded = false := by
        rw [← Bool.not_eq_true, ← bookkept_eq_ok_iff, hb]
        simp
      simp [hmarked, credit]
  | @lapsed t a reply xs e reported h marked =>
    have hreply : reply.succeeded = false := by
      rw [← Bool.not_eq_true, Reply.succeeded_iff, ← Runner.verdict_eq_ok_iff (u := ()), h]
      simp
    rw [reported.observed, hreply]
    rfl

/-- Deeds in order count for those that were done. -/
theorem Deed.ConcludesAll.observed {ds : List Deed} {xs : List Exchange}
    {res : Except RunError Unit} (h : ConcludesAll r ds xs res) :
    ∃ did rest, ds = did ++ rest ∧ (res = .ok () ↔ rest = []) ∧
      ∀ ys, Counts.observed (xs ++ ys) = total did + Counts.observed ys := by
  induction h with
  | nil => exact ⟨[], [], rfl, by simp, fun ys => (Counts.zero_add _).symm⟩
  | @cons d ds xs zs res first others ih =>
    obtain ⟨did, rest, rfl, hres, hdid⟩ := ih
    refine ⟨d :: did, rest, rfl, hres, fun ys => ?_⟩
    rw [List.append_assoc, first.observed, hdid, total, Counts.add_assoc]
    rfl
  | @stop d ds xs e first => exact ⟨[], d :: ds, rfl, by simp, first.observed⟩

/-! ### What runs count for -/

/-- What passes in a run and is not counted: if a task failed, what passed for it, of whose deeds
the first may have been done. -/
inductive Runner.Uncounted (r : Runner) (tasks : List Task) :
    Except RunError Unit → List Exchange → Prop
  | none (res : Except RunError Unit) : Uncounted r tasks res []
  | halfway {past ahead : List Task} {task : Task} {inv : Inventory} {xs : List Exchange}
      {e : RunError} {did rest : List Deed} (tasks_eq : tasks = past ++ task :: ahead)
      (concludes : Deed.ConcludesAll r (task.deeds (inv.sums task.name)) xs (.error e))
      (deeds_eq : task.deeds (inv.sums task.name) = did ++ rest) (unfinished : rest ≠ [])
      (observed_eq : Counts.observed xs = Deed.total did) : Uncounted r tasks (.error e) xs

/-- What passes for tasks is what their counts say, and what is not counted. -/
theorem Task.Concludes.observed {tasks : List Task} {inv : Inventory} {zs : List Exchange}
    {res : Except RunError Unit} {counts : Counts} (h : Task.Concludes r tasks inv zs res counts) :
    ∃ xs ys, zs = xs ++ ys ∧ r.Uncounted tasks res ys ∧
      ∀ ws, Counts.observed (xs ++ ws) = counts + Counts.observed ws := by
  induction h with
  | nil inv => exact ⟨[], [], rfl, .none _, fun ws => (Counts.zero_add _).symm⟩
  | @cons task tasks inv xs ys res counts first others ih =>
    obtain ⟨xs', ys', rfl, huncounted, hcounts⟩ := ih
    obtain ⟨did, rest, hdeeds, hrest, hfirst⟩ := first.observed
    obtain rfl := hrest.1 rfl
    rw [List.append_nil] at hdeeds
    refine ⟨xs ++ xs', ys', (List.append_assoc _ _ _).symm, ?_, fun ws => ?_⟩
    · cases huncounted with
      | none => exact .none _
      | @halfway past _ _ _ _ _ _ _ tasks_eq concludes deeds_eq unfinished observed_eq =>
        have htasks := congrArg (task :: ·) tasks_eq
        rw [← List.cons_append] at htasks
        exact .halfway htasks concludes deeds_eq unfinished observed_eq
    · rw [List.append_assoc, hfirst, hcounts, ← hdeeds, Deed.total_deeds, Counts.add_assoc]
  | @stop task tasks inv xs e first =>
    obtain ⟨did, rest, hdeeds, hrest, hfirst⟩ := first.observed
    have hunfinished : rest ≠ [] := fun hnil => by cases hrest.2 hnil
    have hxs := hfirst []
    rw [List.append_nil] at hxs
    exact ⟨[], xs, rfl, .halfway (List.nil_append _).symm first hdeeds hunfinished hxs,
      fun ws => (Counts.zero_add _).symm⟩

namespace Runner

theorem Prepares.counts_eq {xs : List Exchange} {res : Except RunError Unit}
    (h : r.Prepares xs res) : ∀ x ∈ xs, ∀ zs, x.counts zs = .zero := by
  cases h <;> simp [Exchange.counts]

variable {tasks : List Task}

/-- The same of a whole run. -/
theorem Concludes.observed {zs : List Exchange} {res : Except RunError Unit} {counts : Counts}
    (h : r.Concludes tasks zs res counts) :
    ∃ xs ys, zs = xs ++ ys ∧ r.Uncounted tasks res ys ∧
      ∀ ws, Counts.observed (xs ++ ws) = counts + Counts.observed ws := by
  cases h with
  | unprepared h =>
    refine ⟨zs, [], (List.append_nil _).symm, .none _, fun ws => ?_⟩
    rw [Counts.observed_append h.counts_eq, Counts.zero_add]
  | @unlisted xs reply e h listing =>
    refine ⟨_, [], (List.append_nil _).symm, .none _, fun ws => ?_⟩
    rw [List.append_assoc, Counts.observed_append h.counts_eq]
    rfl
  | @worked xs ys reply inv res counts h listing work =>
    obtain ⟨xs', ys', rfl, huncounted, hcounts⟩ := work.observed
    refine ⟨xs ++ .asked r.listingCall reply :: xs', ys', by simp, huncounted, fun ws => ?_⟩
    rw [List.append_assoc, Counts.observed_append h.counts_eq, List.cons_append,
      Counts.observed_asked, hcounts]

variable {σ : Type} {W : σ → Exchange → σ → Prop} {w w' : σ} {ms : List (Moment σ)}

/-- The counts that are told when a run is over are those of all that passed before the task that
failed.  So where no task failed they are those of all that passed, and otherwise the deeds are
missing that were done for the task that failed. -/
theorem counts_observed {result : Except RunError Counts}
    (h : (r.provision tasks).Goes W w ms (.done result) w') :
    ∃ xs ys res counts, exchanges ms = xs ++ ys ++ [.told (closing res counts)] ∧
      result = res.map (fun _ => counts) ∧ Counts.observed xs = counts ∧
      Counts.observed (exchanges ms) = counts + Counts.observed ys ∧
      r.Uncounted tasks res ys := by
  obtain ⟨_, res, counts, hrun, hresult, hms⟩ := yields_provision.1 h.yields
  have hms : exchanges ms = _ := hms
  obtain ⟨xs, ys, rfl, huncounted, hcounts⟩ := hrun.observed
  -- neither what is told in the beginning nor what is told in the end counts
  have hstarted : ∀ zs, Counts.observed (.told (.hostStarted tasks.length false) :: zs) =
      Counts.observed zs := fun zs => Counts.zero_add _
  refine ⟨.told (.hostStarted tasks.length false) :: xs, ys, res, counts, by simp [hms], hresult,
    ?_, ?_, huncounted⟩
  · have hxs := hcounts []
    rw [List.append_nil] at hxs
    rw [hstarted, hxs]
    rfl
  · rw [hms, hstarted, Counts.observed_append_told, hcounts]
    rfl

end Runner

/-! ### A task that fails halfway -/

/-- A task whose second command fails. -/
def Task.halfway : Task := ⟨"t", [⟨"true", "true"⟩, ⟨"exit 3", "exit 3"⟩]⟩

/-- What is done for it on a host whose cache is empty. -/
theorem Task.exists_deeds_halfway : ∃ s₀ s₁, halfway.deeds [] = [.makeDir "t", .sweep "t" [],
    .execute "t" ⟨0, s₀, ⟨"true", "true"⟩, .execute⟩,
    .execute "t" ⟨1, s₁, ⟨"exit 3", "exit 3"⟩, .execute⟩] :=
  ⟨(halfway.checksums[0]?).getD "", (halfway.checksums[1]?).getD "", by decide +kernel⟩

/-- Its first command is executed, and the second fails. -/
theorem Task.exists_halfway : ∃ xs e,
    Deed.ConcludesAll .byDefault (halfway.deeds []) xs (.error e) ∧
      ∀ ys, Counts.observed (xs ++ ys) = ⟨1, 0, 0⟩ + Counts.observed ys := by
  obtain ⟨s₀, s₁, hdeeds⟩ := exists_deeds_halfway
  have hmade : (Deed.makeDir "t").Concludes .byDefault _ (.ok ()) := .makeDir "t" (.saying "")
  have hdone : (Deed.execute "t" ⟨0, s₀, ⟨"true", "true"⟩, .execute⟩).Concludes .byDefault _
      (.ok ()) := .executed (.logged {}) rfl (.saying "")
  have hfailed : (Deed.execute "t" ⟨1, s₁, ⟨"exit 3", "exit 3"⟩, .execute⟩).Concludes .byDefault _
      _ := .lapsed (.logged { exit := .ok 3 }) rfl (.saying "")
  rw [hdeeds]
  refine ⟨_, _, .cons hmade (.cons (.clean "t") (.cons hdone (.stop hfailed))), fun ys => ?_⟩
  rw [List.append_assoc, hmade.observed, List.nil_append, List.append_assoc, hdone.observed,
    hfailed.observed]
  simp [Deed.credit, Deed.counts, Counts.add_def, Counts.zero]

/-- What passes before the first deed on a host that keeps silent. -/
theorem Runner.prepares_byDefault : byDefault.Prepares [.asked groupsCall (.saying ""),
    .asked byDefault.setupCall (.saying ""), .closed (.ok ())] (.ok ()) :=
  .reset rfl (readied_saying "") (by decide) (readied_saying "") (.ok ())

theorem Runner.inventoried_byDefault :
    inventoried byDefault.settings.cacheRoot (.saying "") = .ok .empty :=
  inventoried_eq_ok_iff.2 ⟨_, Reply.output_saying "", rfl, rfl⟩

/-- A run of that task, which fails; what passed before the task counts for nothing. -/
theorem Runner.exists_halfway : ∃ (xs : List Exchange) (e : RunError),
    (byDefault.provision [.halfway]).Yields xs (.error e) ∧
      xs.getLast? = some (.told (.hostFinished 0 0 0 (some e.message))) ∧
      Counts.observed xs = ⟨1, 0, 0⟩ := by
  obtain ⟨xs, e, hxs, hobserved⟩ := Task.exists_halfway
  have hwork : Task.Concludes byDefault [.halfway] .empty xs (.error e) .zero := .stop hxs
  have hrun := Concludes.worked prepares_byDefault inventoried_byDefault hwork
  refine ⟨_, e, yields_provision.2 ⟨_, _, _, hrun, rfl, rfl⟩, ?_, ?_⟩
  · rw [← List.cons_append, List.getLast?_concat]
    rfl
  · have hbefore : ∀ x ∈ [.told (.hostStarted 1 false), .asked groupsCall (.saying ""),
        .asked byDefault.setupCall (.saying ""), .closed (.ok ()),
        .asked byDefault.listingCall (.saying "")], ∀ zs, Exchange.counts x zs = .zero := by
      simp [Exchange.counts]
    have hclosing : Counts.observed (xs ++ [.told (closing (.error e) .zero)]) = ⟨1, 0, 0⟩ :=
      hobserved _
    simpa using (Counts.observed_append hbefore _).trans hclosing

/-- What passes for a task that fails is not counted, though it may count for something: here a
command was executed and the marker of that was accepted. -/
theorem Runner.halfway_uncounted : ∃ (ms : List (Moment Unit)) (e : RunError),
    (byDefault.provision [.halfway]).Goes (fun _ _ _ => True) () ms (.done (.error e)) () ∧
      (exchanges ms).getLast? = some (.told (.hostFinished 0 0 0 (some e.message))) ∧
      Counts.observed (exchanges ms) = ⟨1, 0, 0⟩ := by
  obtain ⟨xs, e, hyields, hlast, hobserved⟩ := exists_halfway
  refine ⟨_, e, hyields.goes fun _ _ => trivial, ?_⟩
  rw [exchanges_map]
  exact ⟨hlast, hobserved⟩

/-- The counts that are told are those of what passed before that task. -/
theorem Runner.halfway_observed : ∃ (ms : List (Moment Unit)) (e : RunError)
    (xs ys : List Exchange),
    (byDefault.provision [.halfway]).Goes (fun _ _ _ => True) () ms (.done (.error e)) () ∧
      exchanges ms = xs ++ ys ++ [.told (.hostFinished 0 0 0 (some e.message))] ∧
      Counts.observed xs = .zero ∧ Counts.observed ys = ⟨1, 0, 0⟩ := by
  obtain ⟨zs, e, hyields, hlast, hobserved⟩ := exists_halfway
  have hgoes : (byDefault.provision [.halfway]).Goes (fun _ _ _ => True) () _ _ () :=
    hyields.goes fun _ _ => trivial
  obtain ⟨xs, ys, res, counts, hms, -, hxs, hall, -⟩ := counts_observed hgoes
  rw [exchanges_map] at hms hall
  rw [hms, List.getLast?_concat, Option.some.injEq, Exchange.told.injEq] at hlast
  obtain rfl : counts = .zero := by
    obtain ⟨h₁, h₂, h₃, -⟩ := Happening.hostFinished.inj hlast
    cases counts
    subst h₁ h₂ h₃
    rfl
  rw [Counts.zero_add, hobserved] at hall
  rw [hlast] at hms
  exact ⟨_, e, xs, ys, hgoes, by rw [exchanges_map, hms], hxs, hall.symm⟩

end Provisioning
