import Mathlib.Algebra.GroupWithZero.Nat
import Provisioning.Proofs.Run.Completion
import Provisioning.Proofs.Run.Moves

/-!
# Dry runs foretell runs

A dry run lists the cache and plans from what it shows; a run lists the cache again and uses up what
it shows, task by task, while markers come and go on the host.  Both come to the same: as long as
tasks have names of their own, what one task does to the inventory or to the host is of no concern
to the plan of another one.

The world is one in which nothing is asked of a script but that those before the first deed leave
the files alone and that the listing, if it succeeds, tells the truth (`Candid`).  Commands and
bookkeeping may do anything to the files of the host, and reply what they like.

* `Candid.stays` : nothing before the first deed changes a file;
* `Runner.plan_foretells` : the moves of a run are those that a dry run has planned.
-/

namespace Provisioning

/-- What may come of exchanges with a host, as far as a dry run and a run after it rely on it. -/
inductive Candid (r : Runner) : Files → Exchange → Files → Prop
  /-- The scripts before the first deed leave files alone, and the listing tells the truth. -/
  | opened {fs : Files} {call : Call} {reply : Reply} (h : call.shell ∈ r.opening)
      (hl : ∀ out, call.shell = Cache.listingScript r.settings.cacheRoot →
        reply.output = .ok out → out.succeeded → fs.Lists out.stdout) :
      Candid r fs (.asked call reply) fs
  /-- Any other script may do anything. -/
  | sent {fs fs' : Files} {call : Call} {reply : Reply} (h : call.shell ∉ r.opening) :
      Candid r fs (.asked call reply) fs'
  | closed (fs : Files) (result : Except TransportError Unit) : Candid r fs (.closed result) fs
  | told (fs : Files) (what : Happening) : Candid r fs (.told what) fs
  /-- So may the writing of a log. -/
  | logged (fs fs' : Files) (job : LogJob) (result : Except LogError Unit) :
      Candid r fs (.logged job result) fs'

variable {r : Runner} {fs fs' : Files} {ms : List (Moment Files)} {tasks : List Task}

namespace Candid

/-- The world of the histories of a host is candid. -/
theorem of_allowed {part : Failing} {x : Exchange}
    (h : Allowed r.settings.cacheRoot part fs x fs') : Candid r fs x fs' := by
  cases x with
  | asked call reply =>
    by_cases hopen : call.shell ∈ r.opening
    · have he : (Exchange.asked call reply).effect = [] :=
        (Exchange.Opens.harmless (r := r) (x := .asked call reply) hopen).2
      have hfs : fs' = fs := h.of_effect_nil he
      rw [hfs]
      refine .opened hopen fun out hlist hout hs => ?_
      cases h with
      | succeeded _ hl => exact hl out hout hlist
      | failed hf _ => simp [Reply.succeeded, hout, hs] at hf
    · exact .sent hopen
  | closed result =>
    cases h
    exact .closed _ _
  | told what =>
    cases h
    exact .told _ _
  | logged job result => exact .logged _ _ _ _

/-- Nothing before the first deed changes a file. -/
theorem stays {x : Exchange} (h : Candid r fs x fs') (hx : x.Opens r) : fs' = fs := by
  cases h with
  | opened | closed | told => rfl
  | sent h => exact absurd hx h
  | logged => exact absurd hx id

/-- An inventory that the listing leads to tells what is there. -/
theorem known {reply : Reply} {inv : Inventory}
    (h : Candid r fs (.asked ⟨Cache.listingScript r.settings.cacheRoot, []⟩ reply) fs')
    (hinv : inventoried r.settings.cacheRoot reply = .ok inv) :
    Known r.settings.cacheRoot fs inv := by
  obtain ⟨out, hout, hs, hl⟩ := inventoried_eq_ok_iff.1 hinv
  cases h with
  | opened _ htrue => exact ⟨out.stdout, htrue out rfl hout hs, hl⟩
  | sent h => exact absurd (by simp [Runner.opening]) h

/-- Where something is known of the files, every listing that succeeds leads to an inventory. -/
theorem exists_inventoried {reply : Reply} {inv : Inventory}
    (h : Candid r fs (.asked ⟨Cache.listingScript r.settings.cacheRoot, []⟩ reply) fs')
    (hreply : reply.succeeded) (hk : Known r.settings.cacheRoot fs inv) :
    ∃ inv', inventoried r.settings.cacheRoot reply = .ok inv' := by
  obtain ⟨out, hout, hs⟩ := Reply.exists_output_of_succeeded hreply
  cases h with
  | opened _ htrue =>
    obtain ⟨inv', hinv'⟩ := hk.listable _ (htrue out rfl hout hs)
    exact ⟨inv', inventoried_eq_ok_iff.2 ⟨out, hout, hs, hinv'⟩⟩
  | sent h => exact absurd (by simp [Runner.opening]) h

end Candid

/-! ### Plans and their moves -/

namespace Plan

/-- The moves that a plan announces: commands marked as cached are skipped, then the stale markers
deleted, then the commands marked for execution sent. -/
def moves (r : Runner) (p : Plan) : List Move :=
  (p.skipped.map fun a => .skip p.task a.index a.sum) ++
    (p.stale.map fun s => .delete (Cache.donePath (r.dirOf p.task) s)) ++
    p.due.map fun a => .execute p.task a.index a.sum ⟨r.wrap a.action.script, []⟩

/-- Whether a plan is one for a task: it has the name, the commands and the checksums of the
task. -/
structure IsFor (p : Plan) (task : Task) : Prop where
  /-- The name. -/
  task_eq : p.task = task.name
  /-- The commands, in order. -/
  actions : p.actions.map PlannedAction.action = task.actions
  /-- Their checksums. -/
  sums : p.actions.map PlannedAction.sum = task.checksums

theorem isFor_ofTask (task : Task) (known : List String) : (ofTask task known).IsFor task :=
  ⟨rfl, map_action_actions task known, map_sum_actions task known⟩

theorem moves_deeds (r : Runner) (task : Task) (known : List String) :
    (task.deeds known).flatMap (Deed.moves r) = (ofTask task known).moves r := by
  have htask : (ofTask task known).task = task.name := rfl
  rw [Task.deeds, moves, htask]
  simp only [List.flatMap_cons, List.flatMap_append, List.flatMap_map, Deed.moves, List.nil_append,
    ← List.map_eq_flatMap, List.append_assoc]

/-- The deeds of tasks with names of their own show as their plans. -/
theorem moves_itinerary (hn : (tasks.map Task.name).Nodup) (inv : Inventory) :
    (Task.itinerary tasks inv).flatMap (Deed.moves r) =
      (tasks.map fun t => ofTask t (inv.sums t.name)).flatMap (moves r) := by
  rw [Task.itinerary_eq hn, List.flatMap_assoc, List.flatMap_map]
  simp only [moves_deeds]

/-- A task counts for what its plan says. -/
theorem counts_eq (task : Task) (known : List String) : (ofTask task known).counts =
    ⟨(ofTask task known).toExecute, (ofTask task known).cached,
      (ofTask task known).stale.length⟩ := by
  rw [counts, cached_eq]
  rfl

/-- What plans count for if all goes well. -/
def total (plans : List Plan) : Counts :=
  ⟨(plans.map toExecute).sum, (plans.map cached).sum, (plans.map fun p => p.stale.length).sum⟩

theorem total_cons (p : Plan) (plans : List Plan) : total (p :: plans) =
    ⟨p.toExecute, p.cached, p.stale.length⟩ + total plans := rfl

/-- Tasks with names of their own count for what their plans say. -/
theorem tally_eq_total (hn : (tasks.map Task.name).Nodup) (inv : Inventory) :
    Task.tally tasks inv .zero = total (tasks.map fun t => ofTask t (inv.sums t.name)) := by
  have hfold : ∀ (ts : List Task) (c : Counts),
      ts.foldl (fun c t => c + (ofTask t (inv.sums t.name)).counts) c =
        c + total (ts.map fun t => ofTask t (inv.sums t.name)) := by
    intro ts
    induction ts with
    | nil => exact fun c => rfl
    | cons t ts ih =>
      intro c
      rw [List.foldl_cons, ih, List.map_cons, total_cons, counts_eq, Counts.add_assoc]
  rw [Task.tally_eq hn, hfold, Counts.zero_add]

end Plan

/-! ### Runs after dry runs -/

/-- What passes in a run, and how it ends, is as some plans say. -/
structure Foretold (r : Runner) (plans : List Plan) (xs : List Exchange)
    (s' : Script (Except RunError Counts)) : Prop where
  /-- Every move is the one that is planned next. -/
  part : moves r xs <+: plans.flatMap (Plan.moves r)
  /-- If the run comes to a good end no planned move is left out. -/
  all : ∀ c, s' = .done (.ok c) → moves r xs = plans.flatMap (Plan.moves r)
  /-- Then its counts are those of the plans. -/
  counts : ∀ c, s' = .done (.ok c) → c = Plan.total plans

/-- A run has come to no move yet, or its moves follow from what is known of the files. -/
theorem goes_provision_moves {s' : Script (Except RunError Counts)}
    (hn : (tasks.map Task.name).Nodup) (h : (r.provision tasks).Goes (Candid r) fs ms s' fs') :
    (moves r (exchanges ms) = [] ∧ ∀ c, s' ≠ .done (.ok c)) ∨
      ∃ inv, Known r.settings.cacheRoot fs inv ∧
        Foretold r (tasks.map fun t => Plan.ofTask t (inv.sums t.name)) (exchanges ms) s' := by
  obtain ⟨ms₁, closing, s₁, fs₁, rfl, hgoes, hclosing, hphases⟩ := Runner.goes_phases h
  -- what is told in the end is no move
  have hclosed : moves r (exchanges (ms₁ ++ closing)) = moves r (exchanges ms₁) := by
    cases hclosing with
    | cut => rw [List.append_nil]
    | told hq _ =>
      rw [exchanges_append]
      exact moves_append_told hq _
  cases hphases with
  | opening hopens hend => exact .inl ⟨hclosed.trans (moves_still (moves_opening hopens)), hend⟩
  | @working before deeds reply inv t fs₂ moments opens listing goes hend =>
    subst moments
    refine .inr ⟨inv, ?_, ?_⟩
    · -- the cache is listed before a file could have changed
      obtain ⟨s₂, fs₃, h₁, h₂⟩ := hgoes.append_inv
      obtain ⟨rfl, -⟩ := h₁.stays fun m hm v v' hw => hw.stays (opens m hm)
      cases h₂ with
      | next _ hw _ => exact hw.known listing
    · obtain ⟨hpart, hall⟩ := goes_performAll_moves goes
      have hlisting : (Exchange.asked ⟨Cache.listingScript r.settings.cacheRoot, []⟩ reply).Still
          r := .of_opens (by simp [Exchange.Opens, Runner.opening])
      rw [exchanges_append before, moves_append_still (moves_opening opens), exchanges_cons,
        moves_cons_still hlisting] at hclosed
      rw [← hclosed, Plan.moves_itinerary hn] at hpart hall
      refine ⟨hpart, fun c hc => ?_, fun c hc => ?_⟩
      · exact hall () (hend c hc).1
      · rw [(hend c hc).2, Plan.tally_eq_total hn]

/-- What is known of the files foretells the run that begins with them. -/
theorem Known.foretells {inv : Inventory} {s' : Script (Except RunError Counts)}
    (hk : Known r.settings.cacheRoot fs inv) (hn : (tasks.map Task.name).Nodup)
    (h : (r.provision tasks).Goes (Candid r) fs ms s' fs') :
    Foretold r (tasks.map fun t => Plan.ofTask t (inv.sums t.name)) (exchanges ms) s' := by
  rcases goes_provision_moves hn h with ⟨hnone, hne⟩ | ⟨inv', hk', hforetold⟩
  · refine ⟨?_, fun c hc => absurd hc (hne c), fun c hc => absurd hc (hne c)⟩
    rw [hnone]
    exact List.nil_prefix
  · -- the listing of the run shows the same, though perhaps in another order
    have hplans : tasks.map (fun t => Plan.ofTask t (inv.sums t.name)) =
        tasks.map fun t => Plan.ofTask t (inv'.sums t.name) :=
      List.map_congr_left fun t _ => hk.ofTask_eq hk' t
    rw [hplans]
    exact hforetold

/-- A dry run foretells the run after it.  It sends nothing but the script that lists the cache and
changes nothing.  A run that then begins with the same files makes the planned moves, in the planned
order, as far as it comes; if it comes to a good end it makes all of them, and its counts are those
of the plans.  A dry run whose script succeeds has plans for every run that comes to a good end. -/
theorem Runner.plan_foretells {s₁ : Script (Except RunError (List Plan))}
    (hn : (tasks.map Task.name).Nodup) (h : (r.plan tasks).Goes (Candid r) fs ms s₁ fs') :
    (∃ reply, exchanges ms <+: [.told (.hostStarted tasks.length true),
        .asked ⟨Cache.listingScript r.settings.cacheRoot, []⟩ reply]) ∧
      (fs' = fs ∧ ∀ m ∈ ms, m.after = fs) ∧
      ∀ result, s₁ = .done result →
        ∀ ms' s' fs'', (r.provision tasks).Goes (Candid r) fs' ms' s' fs'' →
          (∀ plans, result = .ok plans →
            List.Forall₂ Plan.IsFor plans tasks ∧ Foretold r plans (exchanges ms') s') ∧
          ((∀ m ∈ ms, m.exchange.Fine) → ∀ c, s' = .done (.ok c) →
            ∃ plans, result = .ok plans) := by
  have hstays := h.stays fun m hm v v' hw => hw.stays (h.forall_exchange opens_plan m hm)
  refine ⟨exchanges_plan h, hstays, ?_⟩
  rintro result rfl ms' s' fs'' hrun
  obtain ⟨reply, fs₁, rfl, hw, hw', rfl⟩ := goes_plan_done h
  obtain ⟨rfl, -⟩ := hstays
  obtain rfl : fs₁ = fs' := hw.stays trivial
  refine ⟨fun plans hplans => ?_, fun hfine c hc => ?_⟩
  · rw [forecast] at hplans
    cases hinv : inventoried r.settings.cacheRoot reply with
    | error e => simp [hinv] at hplans
    | ok inv =>
      obtain rfl : tasks.map (fun t => Plan.ofTask t (inv.sums t.name)) = plans := by
        simpa [hinv] using hplans
      refine ⟨?_, (hw'.known hinv).foretells hn hrun⟩
      rw [List.forall₂_map_left_iff, List.forall₂_same]
      exact fun t _ => Plan.isFor_ofTask t _
  · rcases goes_provision_moves hn hrun with ⟨-, hne⟩ | ⟨inv', hknown, -⟩
    · exact absurd hc (hne c)
    · have hreply : reply.succeeded := hfine _ (List.mem_cons_of_mem _ List.mem_cons_self)
      obtain ⟨inv, hinv⟩ := hw'.exists_inventoried hreply hknown
      exact ⟨_, by rw [forecast, hinv]⟩

/-- The courses of the histories of a host are courses here. -/
theorem Script.Goes.candid {α : Type} {part : Failing} {s s' : Script α}
    (h : s.Goes (Allowed r.settings.cacheRoot part) fs ms s' fs') :
    s.Goes (Candid r) fs ms s' fs' := h.mono Candid.of_allowed

/-- On a host that has run both commands of a task as one, a dry run and a run of the two. -/
theorem Runner.greeting_foretold : ∃ ms₀ c₀ fs ms plans ms' c fs',
    (byDefault.provision [.greetingAtOnce]).Goes (Candid byDefault) ∅ ms₀ (.done (.ok c₀)) fs ∧
      (byDefault.plan [.greeting]).Goes (Candid byDefault) fs ms (.done (.ok plans)) fs ∧
      (byDefault.provision [.greeting]).Goes (Candid byDefault) fs ms' (.done (.ok c)) fs' ∧
      moves byDefault (exchanges ms') = plans.flatMap (Plan.moves byDefault) ∧
      c = Plan.total plans := by
  obtain ⟨ms₀, c₀, fs, -, hfirst⟩ := exists_goes_provision byDefault .torn [.greetingAtOnce]
    legible_byDefault (.empty _) Files.finite_markers_empty
  have hreadable : fs.Readable byDefault.settings.cacheRoot :=
    (goes_provision hfirst).readable Task.submittable_greetingAtOnce (.empty _)
  have hfin : fs.markers.Finite :=
    hfirst.invariant (fun hw => hw.finite_markers) Files.finite_markers_empty
  obtain ⟨ms, result, fs₁, hplan, hfine⟩ :=
    Script.exists_goes_fine byDefault.settings.cacheRoot .torn hfin (byDefault.plan [.greeting])
  obtain ⟨ms', c, fs', -, hrun⟩ :=
    exists_goes_provision byDefault .torn [.greeting] legible_byDefault hreadable hfin
  obtain ⟨-, ⟨rfl, -⟩, hforetold⟩ := plan_foretells (by decide) hplan.candid
  obtain ⟨hplans, hok⟩ := hforetold result rfl ms' _ fs' hrun.candid
  obtain ⟨plans, rfl⟩ := hok hfine c rfl
  obtain ⟨-, hmoves⟩ := hplans plans rfl
  exact ⟨ms₀, c₀, fs₁, ms, plans, ms', c, fs', hfirst.candid, hplan.candid, hrun.candid,
    hmoves.all c rfl, hmoves.counts c rfl⟩

end Provisioning
