import Provisioning.Proofs.Cache.Search
import Provisioning.Proofs.Run.Forecast
import Provisioning.Proofs.Run.Touched

/-!
# What tasks own

Every task has a directory of its own below the root of the cache, and all that it keeps lies right
in there: per command a marker of success or of failure, and a log.  A run for some tasks touches
nothing below the root but what these own.

* `Cache.Owns.unique` : no two tasks own the same path, even if the name of one is the beginning of
  that of the other;
* `Runner.only_perform` : what each deed of a run touches;
* `Runner.keepsTo_runTask` : a task touches nothing but its directory and what it keeps there,
  unless one of its commands does;
* `Runner.sums_of_runTask` : what an inventory tells of other tasks is not used up;
* `Script.Goes.unowned` : a run leaves all that its tasks do not own as it is.
-/

namespace Provisioning

/-! ### Paths -/

namespace Cache

variable {root dir sum t t' p : String}

/-- Whether a path lies below the root. -/
def Under (root p : String) : Prop := ∃ rest, p.toList = bareRoot root ++ '/' :: rest

/-- What is kept of a command in the directory of its task. -/
def entries (dir sum : String) : List String :=
  [donePath dir sum, failedPath dir sum, logPath dir sum, partialLogPath dir sum]

/-- Whether a name can be that of something right in a directory. -/
def Plain (name : String) : Prop := Slashless name ∧ name ≠ "" ∧ name ≠ "." ∧ name ≠ ".."

/-- Whether a path is that of the directory of a task or of something right in there. -/
def Owns (root task p : String) : Prop :=
  p = taskDir root task ∨ ∃ name, Plain name ∧ p = taskDir root task ++ "/" ++ name

/-- A name that ends in something longer than two characters. -/
theorem plain_append {name : String} (ending : String) (hn : Slashless name)
    (he : Slashless ending) (hlen : 2 < ending.length) : Plain (name ++ ending) := by
  have hlong : ∀ short : String, short.length ≤ 2 → name ++ ending ≠ short := by
    intro short hshort heq
    have := congrArg String.length heq
    rw [String.length_append] at this
    omega
  exact ⟨hn.append he, hlong _ (by decide), hlong _ (by decide), hlong _ (by decide)⟩

/-- What is kept of a command lies right in the directory of its task. -/
theorem owns_of_mem_entries (hs : Slashless sum) (h : p ∈ entries (taskDir root t) sum) :
    Owns root t p := by
  have hdot : Slashless ("." ++ sum) := Slashless.append (by decide) hs
  simp only [entries, List.mem_cons, List.not_mem_nil, or_false] at h
  rcases h with rfl | rfl | rfl | rfl
  · exact .inr ⟨_, plain_append ".done" hs (by decide) (by decide), String.append_assoc ..⟩
  · exact .inr ⟨_, plain_append ".failed" hs (by decide) (by decide), String.append_assoc ..⟩
  · exact .inr ⟨_, plain_append ".log" hs (by decide) (by decide), String.append_assoc ..⟩
  · refine .inr ⟨_, plain_append ".log.tmp" hdot (by decide) (by decide), ?_⟩
    apply String.toList_injective
    simp [partialLogPath]

theorem under_path (m : Mark) (root t s : String) : Under root (m.path (taskDir root t) s) :=
  ⟨t.toList ++ '/' :: (s.toList ++ m.ending), by simp [Mark.toList_path, toList_taskDir]⟩

/-- The last slash of a path stands before the name of what lies right in a directory, and the rest
of the path tells which directory it is. -/
theorem child_inj {name name' : List Char} (hn : '/' ∉ name) (hn' : '/' ∉ name')
    (h : (taskDir root t).toList ++ '/' :: name = (taskDir root t').toList ++ '/' :: name') :
    t = t' := by
  have hcut := Text.cutLast_eq_some_iff.2 ⟨h, hn'⟩
  rw [Text.cutLast_eq_some_iff.2 ⟨rfl, hn⟩, Option.some_inj, Prod.mk_inj] at hcut
  simpa [toList_taskDir, String.toList_inj] using hcut.1

/-- The directory of a task lies right in no directory of a task. -/
theorem taskDir_ne_child {name : List Char} (ht : Slashless t) :
    (taskDir root t).toList ≠ (taskDir root t').toList ++ '/' :: name := by
  intro h
  simp only [toList_taskDir, List.append_assoc, List.cons_append, List.append_cancel_left_eq,
    List.cons.injEq, true_and] at h
  exact ht (h ▸ by simp)

/-- No two tasks own the same path. -/
theorem Owns.unique (ht : Slashless t) (ht' : Slashless t') (h : Owns root t p)
    (h' : Owns root t' p) : t = t' := by
  rcases h with rfl | ⟨name, hname, rfl⟩
  · rcases h' with h' | ⟨name', -, h'⟩
    · simpa [taskDir, String.ofList_inj, String.toList_inj] using h'
    · exact absurd (by simpa using congrArg String.toList h') (taskDir_ne_child ht)
  · rcases h' with h' | ⟨name', hname', h'⟩
    · exact absurd (by simpa using congrArg String.toList h'.symm) (taskDir_ne_child ht')
    · exact child_inj hname.1 hname'.1 (by simpa using congrArg String.toList h')

/-- A task owns no marker but its own. -/
theorem Owns.eq_of_path {m : Mark} {s : String} (ht : Slashless t) (hs : Slashless s)
    (h : Owns root t (m.path (taskDir root t') s)) : t' = t := by
  have hend : '/' ∉ s.toList ++ m.ending := by
    rw [List.mem_append, not_or]
    exact ⟨hs, by cases m <;> decide⟩
  have hpath : (m.path (taskDir root t') s).toList =
      (taskDir root t').toList ++ '/' :: (s.toList ++ m.ending) := by
    simp [Mark.toList_path]
  rcases h with h | ⟨name, hname, h⟩
  · rw [h] at hpath
    exact absurd hpath (taskDir_ne_child ht)
  · exact child_inj hend hname.1 (by simpa [hpath] using congrArg String.toList h)

end Cache

open Shell

/-! ### Deeds -/

/-- The paths that the scripts of a deed name, but for the script of its command. -/
def Deed.paths (root : String) : Deed → List String
  | makeDir t => upwards (Cache.taskDir root t)
  | skip _ _ => []
  | sweep t stale => stale.map (Cache.donePath (Cache.taskDir root t))
  | execute t a => Cache.entries (Cache.taskDir root t) a.sum

/-- Whether an exchange is that by which the script of an action is run. -/
def Exchange.Runs (r : Runner) (a : Action) (x : Exchange) : Prop :=
  ∃ reply, x = .asked ⟨r.wrap a.script, []⟩ reply

namespace Runner

variable (r : Runner)

theorem only_tellLines (t sum : String) (ls : List LogLine) :
    (tellLines t sum ls).Only fun x => x.touched = [] := by
  induction ls with
  | nil => trivial
  | cons l ls ih => exact ⟨rfl, ih⟩

/-- While the output of a command is told of and logged, nothing but the files of that log is
touched. -/
theorem only_account (t dir : String) (a : PlannedAction) (reply : Reply) :
    (account t dir a reply).Only fun x => x.touched ⊆ Cache.entries dir a.sum := by
  cases reply with
  | refused e => trivial
  | session s =>
    refine ((only_tellLines _ _ _).mono fun x hx => ?_).bind fun _ => fun result => ?_
    · rw [hx]
      exact List.nil_subset _
    · have hlog : (Exchange.logged ⟨dir, a.sum, sent (allReaderSteps s)⟩ result).touched ⊆
          Cache.entries dir a.sum := by
        intro p hp
        rcases Exchange.mem_touched_logged.1 hp with rfl | rfl <;> simp [Cache.entries]
      cases result with
      | error e => exact ⟨hlog, List.nil_subset _, trivial⟩
      | ok _ => exact ⟨hlog, trivial⟩

/-- After a command has ended its markers are touched. -/
theorem only_settle (t dir : String) (a : PlannedAction) (ending : Ending) :
    (settle t dir a ending).run.Only fun x => x.touched ⊆ Cache.entries dir a.sum := by
  rw [run_settle]
  refine ⟨List.nil_subset _, ?_⟩
  cases verdict t a ending.exit with
  | ok _ =>
    intro reply
    refine ⟨?_, trivial⟩
    simp [touched_doneScript, Cache.entries]
  | error e =>
    intro reply
    refine ⟨?_, trivial⟩
    simp [touched_failedScript, Cache.entries]

/-- A deed runs the script of its command and otherwise touches nothing but its own paths. -/
theorem only_perform (d : Deed) : (r.perform d).run.Only fun x =>
    (∃ t a, d = .execute t a ∧ x.Runs r a.action) ∨ x.touched ⊆ d.paths r.settings.cacheRoot := by
  cases d with
  | makeDir t =>
    rw [perform, makeDir, run_bookkeep]
    intro reply
    refine ⟨.inr ?_, trivial⟩
    have hself : r.dirOf t ∈ upwards (r.dirOf t) := mem_upwards.2 (.inl rfl)
    simp [touched_makeDirScript, Deed.paths, hself]
  | skip t a => exact ⟨.inr (List.nil_subset _), trivial⟩
  | sweep t stale =>
    cases stale with
    | nil => trivial
    | cons s ss =>
      rw [run_sweep]
      intro reply
      refine ⟨.inr ?_, ?_⟩
      · simp [touched_deleteScript, Deed.paths]
      · beta_reduce
        cases bookkept t "delete stale markers" reply with
        | error e => trivial
        | ok _ => exact ⟨.inr (List.nil_subset _), trivial⟩
  | execute t a =>
    rw [perform_execute, run_execute]
    refine ⟨.inr (List.nil_subset _), fun reply => ⟨.inl ⟨t, a, rfl, reply, rfl⟩, ?_⟩⟩
    refine ((only_account t _ a reply).bind fun ending => only_settle t _ a ending).mono ?_
    exact fun x hx => .inr hx

theorem only_performAll {P : Exchange → Prop} {ds : List Deed}
    (h : ∀ d ∈ ds, (r.perform d).run.Only P) : (r.performAll ds).run.Only P := by
  induction ds with
  | nil => trivial
  | cons d ds ih =>
    rw [List.forall_mem_cons] at h
    rw [performAll, ExceptT.run_bind]
    refine h.1.bind fun res => ?_
    cases res with
    | error e => trivial
    | ok _ => exact ih h.2

end Runner

/-! ### Tasks -/

/-- Whether an exchange runs a command of a task, or touches nothing below the root but the
directory of the task and what is kept there of its commands and of others that are known. -/
def Exchange.KeepsTo (r : Runner) (task : Task) (known : List String) (x : Exchange) : Prop :=
  (∃ a ∈ task.actions, x.Runs r a) ∨
    ∀ p ∈ x.touched, Cache.Under r.settings.cacheRoot p →
      p = r.dirOf task.name ∨
        ∃ s, (s ∈ task.checksums ∨ s ∈ known) ∧ p ∈ Cache.entries (r.dirOf task.name) s

variable {r : Runner} {task : Task} {tasks : List Task} {known : List String} {inv : Inventory}

/-- What stands above the directory of a task does not lie below the root. -/
theorem Cache.eq_taskDir_of_mem_upwards {root t p : String} (ht : Slashless t)
    (hp : p ∈ upwards (taskDir root t)) (hunder : Under root p) : p = taskDir root t := by
  rcases mem_upwards.1 hp with rfl | ⟨rest, hrest⟩
  · rfl
  · obtain ⟨below, hbelow⟩ := hunder
    rw [toList_taskDir, hbelow, List.append_assoc, List.append_cancel_left_eq, List.cons_append,
      List.cons.injEq] at hrest
    exact absurd (hrest.2 ▸ by simp) ht

theorem Task.action_mem_of_mem_due {a : PlannedAction} (h : a ∈ (Plan.ofTask task known).due) :
    a.action ∈ task.actions := by
  rw [← Plan.map_action_actions task known]
  exact List.mem_map_of_mem (List.mem_filter.1 h).1

theorem Task.keepsTo_deed (hname : Slashless task.name) {d : Deed} (hd : d ∈ task.deeds known) :
    (r.perform d).run.Only (Exchange.KeepsTo r task known) := by
  have htask := task_of_mem_deeds hd
  refine (r.only_perform d).mono fun x hx => ?_
  rcases hx with ⟨t, a, rfl, hruns⟩ | hpaths
  · exact .inl ⟨_, action_mem_of_mem_due ((task.execute_mem_deeds known).1 hd).2, hruns⟩
  refine .inr fun p hp hunder => ?_
  have hp := hpaths hp
  cases d with
  | makeDir t =>
    obtain rfl : t = task.name := htask
    exact .inl (Cache.eq_taskDir_of_mem_upwards hname hp hunder)
  | skip t a => exact absurd hp List.not_mem_nil
  | sweep t stale =>
    obtain ⟨rfl, rfl⟩ := (task.sweep_mem_deeds known).1 hd
    obtain ⟨s, hs, rfl⟩ := List.mem_map.1 hp
    exact .inr ⟨s, .inr ((Plan.mem_stale task).1 hs).1, List.mem_cons_self⟩
  | execute t a =>
    obtain ⟨rfl, ha⟩ := (task.execute_mem_deeds known).1 hd
    exact .inr ⟨a.sum, .inl (sum_mem_of_mem_due ha), hp⟩

/-- A task touches nothing but its directory and what it keeps there, unless one of its commands
does. -/
theorem Runner.keepsTo_runTask (hname : Slashless task.name) (inv : Inventory) :
    (r.runTask task inv).Only (Exchange.KeepsTo r task (inv.sums task.name)) := by
  have hdeeds : ∀ d ∈ task.deeds (inv.sums task.name),
      (r.perform d).run.Only (Exchange.KeepsTo r task (inv.sums task.name)) :=
    fun d hd => Task.keepsTo_deed hname hd
  rw [runTask_eq]
  refine (hdeeds _ List.mem_cons_self).bind fun res => ?_
  cases res with
  | error e => trivial
  | ok _ =>
    have hrest := r.only_performAll fun d hd => hdeeds d (List.mem_of_mem_tail hd)
    rw [ExceptT.run_bind, map_bind]
    refine hrest.bind fun res => ?_
    cases res <;> trivial

/-- A task uses up nothing of what an inventory tells of others. -/
theorem Runner.sums_of_runTask {xs : List Exchange} {res : Except RunError Counts}
    {inv' : Inventory} (h : (r.runTask task inv).Yields xs (res, inv')) {t : String}
    (ht : t ≠ task.name) : inv'.sums t = inv.sums t := by
  rw [runTask_eq] at h
  obtain ⟨made, ys, zs, rfl, -, hrest⟩ := Script.yields_bind.1 h
  cases made with
  | error e =>
    obtain ⟨-, he⟩ := Script.yields_done.1 hrest
    rw [(Prod.mk.inj he).2]
  | ok _ =>
    simp only [← bind_pure_comp] at hrest
    obtain ⟨res', ys, zs, rfl, -, hend⟩ := Script.yields_bind.1 hrest
    obtain ⟨-, he⟩ := Script.yields_done.1 hend
    rw [(Prod.mk.inj he).2]
    exact Inventory.sums_erase ht

/-- Where no known checksum has a slash, an exchange that keeps to a task touches nothing below the
root but what the task owns, unless it runs one of its commands. -/
theorem Exchange.KeepsTo.owns {x : Exchange} (h : x.KeepsTo r task known)
    (hknown : ∀ s ∈ known, Slashless s) : (∃ a ∈ task.actions, x.Runs r a) ∨
      ∀ p ∈ x.touched, Cache.Under r.settings.cacheRoot p →
        Cache.Owns r.settings.cacheRoot task.name p := by
  refine h.imp_right fun htouched p hp hunder => ?_
  rcases htouched p hp hunder with rfl | ⟨s, hs, hentry⟩
  · exact .inl rfl
  · exact Cache.owns_of_mem_entries (hs.elim Task.slashless_checksum (hknown s)) hentry

/-! ### Whole runs -/

/-- Whether an exchange keeps to one of some tasks, of which checksums are known that have no
slash. -/
def Exchange.KeepsToOneOf (r : Runner) (tasks : List Task) (x : Exchange) : Prop :=
  ∃ task ∈ tasks, ∃ known : List String, (∀ s ∈ known, Slashless s) ∧ x.KeepsTo r task known

namespace Runner

theorem keepsTo_runTasks (hv : ∀ t ∈ tasks, Slashless t.name) (hinv : ∀ m ∈ inv, Slashless m.sum)
    (counts : Counts) : (r.runTasks tasks inv counts).Only (Exchange.KeepsToOneOf r tasks) := by
  induction tasks generalizing inv counts with
  | nil => trivial
  | cons t ts ih =>
    rw [List.forall_mem_cons] at hv
    have hknown : ∀ s ∈ inv.sums t.name, Slashless s :=
      fun s hs => hinv _ (Inventory.mem_sums.1 hs)
    have hleft : ∀ m ∈ inv.erase t.name, Slashless m.sum :=
      fun m hm => hinv m (List.mem_filter.1 hm).1
    rw [runTasks_cons]
    refine (r.only_performAll fun d hd => (Task.keepsTo_deed hv.1 hd).mono fun x hx =>
      ⟨t, List.mem_cons_self, _, hknown, hx⟩).bind fun res => ?_
    cases res with
    | error e => trivial
    | ok _ =>
      refine (ih hv.2 hleft _).mono ?_
      rintro x ⟨task, htask, hx⟩
      exact ⟨task, List.mem_cons_of_mem _ htask, hx⟩

theorem keepsTo_runHost (hv : ∀ t ∈ tasks, Slashless t.name) :
    (r.runHost tasks).Only fun x => x.Opens r ∨ x.KeepsToOneOf r tasks := by
  rw [runHost]
  refine (opens_prepareIfManaged.mono fun x hx => .inl hx).bind fun res => ?_
  cases res with
  | error e => trivial
  | ok _ =>
    show (Script.ofTalk (takeInventory r.settings.cacheRoot) >>= _).Only _
    rw [ofTalk_takeInventory]
    intro reply
    refine ⟨.inl (by simp [Exchange.Opens, opening]), ?_⟩
    dsimp only [Script.bind]
    split
    · trivial
    · next inv hinv =>
      obtain ⟨out, -, -, hlisting⟩ := inventoried_eq_ok_iff.1 hinv
      have hsums : ∀ m ∈ inv, Slashless m.sum :=
        fun m hm => Inventory.slashless_of_ofListing hlisting hm
      exact (keepsTo_runTasks hv hsums .zero).mono fun x hx => .inr hx

/-- All that passes in a run belongs to the opening or keeps to one of the tasks. -/
theorem keepsTo_provision (hv : ∀ t ∈ tasks, Slashless t.name) :
    (r.provision tasks).Only fun x => x.Opens r ∨ x.KeepsToOneOf r tasks := by
  refine ⟨.inl trivial, (keepsTo_runHost hv).bind ?_⟩
  rintro ⟨result, counts⟩
  exact ⟨.inl trivial, trivial⟩

/-- What is sent before the first deed touches no marker. -/
theorem path_not_mem_touched_of_opens {x : Exchange} (h : x.Opens r) (m : Mark) (t s : String) :
    m.path (r.dirOf t) s ∉ x.touched := by
  -- all that lies above the root is a beginning of it, and the path of a marker is none
  have habove : ¬ (m.path (r.dirOf t) s).toList <+: r.settings.cacheRoot.toList := by
    intro hbegin
    obtain ⟨n, hroot⟩ := Cache.exists_toList_eq r.settings.cacheRoot
    rw [hroot, Mark.toList_path, Cache.toList_taskDir, List.append_assoc, List.append_assoc,
      List.prefix_append_right_inj] at hbegin
    have hdot : '.' ∈ m.ending := by cases m <;> decide
    have hslash := List.eq_of_mem_replicate (hbegin.subset (by simp [hdot] : '.' ∈ _))
    exact absurd hslash (by decide)
  cases x with
  | closed | told => exact List.not_mem_nil
  | logged => exact absurd h id
  | asked call reply =>
    simp only [Exchange.Opens, opening, List.mem_cons, List.not_mem_nil, or_false] at h
    rw [Exchange.touched_asked]
    rcases h with h | h | h
    · rw [h, touched_listGroups]
      exact List.not_mem_nil
    · rw [h, touched_strictShell, touchedOutside_setupScript]
      intro hp
      simp only [List.mem_cons, List.mem_append, List.not_mem_nil, or_false, or_self] at hp
      rcases hp with hp | hp | hp
      · -- no marker is called like the null device
        have hlast := Mark.getLast?_path m (r.dirOf t) s
        rw [hp] at hlast
        cases m <;> exact absurd hlast (by decide)
      · rcases mem_upwards.1 hp with hp | ⟨rest, hrest⟩
        · exact habove (hp ▸ List.prefix_rfl)
        · exact habove (hrest ▸ List.prefix_append _ _)
      · exact habove (hp ▸ List.prefix_rfl)
    · rw [h, touched_listingScript]
      exact List.not_mem_nil

end Runner

/-- A run leaves all below the root that its tasks do not own as it is, wherever it is cut off and
whatever fails. -/
theorem Script.Goes.unowned {part : Failing} {fs fs' : Files} {ms : List (Moment Files)}
    {s' : Script (Except RunError Counts)}
    (h : (r.provision tasks).Goes (Allowed r.settings.cacheRoot part) fs ms s' fs')
    (hv : ∀ t ∈ tasks, Slashless t.name) {p : String}
    (hunder : Cache.Under r.settings.cacheRoot p)
    (hp : ∀ task ∈ tasks, ¬ Cache.Owns r.settings.cacheRoot task.name p) :
    p ∈ fs' ↔ p ∈ fs := by
  refine h.keeps (Q := fun fs₁ => p ∈ fs₁ ↔ p ∈ fs) (fun m hm v v' hw hv' => ?_) Iff.rfl
  rcases h.forall_exchange (Runner.keepsTo_provision hv) m hm with
    hopens | ⟨task, htask, known, hknown, hkeeps⟩
  · rw [(Candid.of_allowed hw).stays hopens]
    exact hv'
  · rcases hkeeps.owns hknown with ⟨a, -, reply, hruns⟩ | howns
    · -- the command of a task leaves the cache alone
      rw [hruns] at hw
      rw [hw.of_effect_nil (effect_wrap r _)]
      exact hv'
    · exact (hw.mem_iff_of_not_mem_touched fun hmem =>
        hp task htask (howns p hmem hunder)).trans hv'

end Provisioning
