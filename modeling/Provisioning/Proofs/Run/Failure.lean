import Provisioning.Proofs.Run.Counting
import Provisioning.Proofs.Run.Progress

/-!
# The first failure of a run

If all goes well then what a run sends to a host follows from what the host is and holds, and that
is listed by `Runner.agenda`.  A run in which something fails sends a first part of that, up to and
with the call that failed; the failure of a command is marked, and nothing else is sent any more.
Writing a log is not counted among the calls, because nothing depends on it.

* `Exchange.Passes` : whether a call came to a good end;
* `Runner.Stumbles`, `Runner.Stops` : how the first call that did not ends a run, and with which
  error;
* `Runner.Concludes.comes` : every run comes to the end of its agenda or stops on the way;
* `Runner.stops_at_first_failure` : a run beside one from the same host in which all went well.
-/

namespace Provisioning

/-! ### Requests -/

/-- Something that is sent to a host. -/
inductive Request where
  /-- A script. -/
  | call (call : Call)
  /-- That open sessions be closed. -/
  | reset
deriving DecidableEq

/-- What is sent, in order. -/
def requests (xs : List Exchange) : List Request :=
  xs.filterMap fun
    | .asked call _ => some (.call call)
    | .closed _ => some .reset
    | _ => none

@[simp] theorem requests_nil : requests [] = [] := rfl

@[simp] theorem requests_asked (call : Call) (reply : Reply) (xs : List Exchange) :
    requests (.asked call reply :: xs) = .call call :: requests xs := rfl

@[simp] theorem requests_closed (result : Except TransportError Unit) (xs : List Exchange) :
    requests (.closed result :: xs) = .reset :: requests xs := rfl

@[simp] theorem requests_told (what : Happening) (xs : List Exchange) :
    requests (.told what :: xs) = requests xs := rfl

@[simp] theorem requests_logged (job : LogJob) (result : Except LogError Unit)
    (xs : List Exchange) : requests (.logged job result :: xs) = requests xs := rfl

@[simp] theorem requests_append (xs ys : List Exchange) :
    requests (xs ++ ys) = requests xs ++ requests ys := List.filterMap_append

/-! ### How scripts begin -/

theorem Cache.head_listingScript (root : String) :
    (Cache.listingScript root).toList.head? = some 'i' := by
  simp [listingScript]

theorem head_strictShell (elevate : Bool) (script : String) :
    (strictShell elevate script).toList.head? = some (if elevate then 's' else 'b') := by
  cases elevate <;> simp [strictShell]

namespace Runner

variable (dir sum script : String)

theorem head_makeDirScript : (makeDirScript dir).toList.head? = some 't' := by
  simp [makeDirScript]

theorem head_deleteScript (sums : List String) :
    (deleteScript dir sums).toList.head? = some 'r' := by
  simp [deleteScript]

theorem head_doneScript : (doneScript dir sum script).toList.head? = some 'p' := by
  simp [doneScript, recordScript]

theorem head_failedScript : (failedScript dir sum script).toList.head? = some 'p' := by
  simp [failedScript, recordScript]

end Runner

/-! ### What passes -/

/-- Whether an exchange came to a good end.  For the listing of the cache it is not enough that it
succeeds: what it shows has to be accepted. -/
structure Exchange.Passes (r : Runner) (x : Exchange) : Prop where
  /-- A script succeeded, or sessions were closed. -/
  fine : x.Fine
  /-- What the listing shows is accepted. -/
  accepted : ∀ reply, x = .asked r.listingCall reply →
    ∃ inv, inventoried r.settings.cacheRoot reply = .ok inv

/-- Whether an exchange tells the truth about a host: whether who logs in is a member of the group,
and which files there are in the cache. -/
structure Exchange.Truthful (r : Runner) (member : Bool) (fs : Files) (x : Exchange) : Prop where
  /-- The groups are those of who logs in. -/
  groups : ∀ reply ids, x = .asked Runner.groupsCall reply → readied reply = .ok ids →
    hasGroup ids.stdout r.settings.cacheGroup = member
  /-- The listing shows the files. -/
  listing : ∀ reply out, x = .asked r.listingCall reply → reply.output = .ok out →
    out.succeeded → fs.Lists out.stdout

/-- Whether an exchange asks nothing about the host. -/
def Exchange.Acts (r : Runner) : Exchange → Prop
  | asked call _ => call ≠ Runner.groupsCall ∧ call ≠ r.listingCall
  | _ => True

variable {r : Runner} {member : Bool} {fs : Files}

namespace Exchange

theorem passes_asked_iff {call : Call} {reply : Reply} (h : call ≠ r.listingCall) :
    (asked call reply).Passes r ↔ reply.succeeded := by
  refine ⟨Passes.fine, fun hfine => ⟨hfine, fun reply' he => ?_⟩⟩
  cases he
  exact absurd rfl h

@[simp] theorem passes_told (what : Happening) : (told what).Passes r :=
  ⟨trivial, fun _ he => by cases he⟩

@[simp] theorem passes_logged (job : LogJob) (result : Except LogError Unit) :
    (logged job result).Passes r := ⟨trivial, fun _ he => by cases he⟩

@[simp] theorem passes_closed_iff {result : Except TransportError Unit} :
    (closed result).Passes r ↔ result = .ok () :=
  ⟨Passes.fine, fun hfine => ⟨hfine, fun _ he => by cases he⟩⟩

theorem Reports.passes {x : Exchange} (h : x.Reports) : x.Passes r := by
  unfold Reports at h
  split at h
  · simp
  · simp
  · simp
  · exact absurd h id

theorem Reports.requests_eq {xs : List Exchange} (h : ∀ x ∈ xs, x.Reports) : requests xs = [] := by
  rw [requests, List.filterMap_eq_nil_iff]
  intro x hx
  have hreports := h x hx
  unfold Reports at hreports
  split at hreports
  · rfl
  · rfl
  · rfl
  · exact absurd hreports id

theorem Acts.truthful {x : Exchange} (h : x.Acts r) : x.Truthful r member fs where
  groups := by
    rintro reply ids rfl -
    exact absurd rfl h.1
  listing := by
    rintro reply out rfl - -
    exact absurd rfl h.2

/-- The scripts that ask about a host begin alike, and others do not begin so. -/
theorem acts_of_head {shell : String} {c : Char} (h : shell.toList.head? = some c) (hc : c ≠ 'i')
    (reply : Reply) : (asked ⟨shell, []⟩ reply).Acts r := by
  constructor
  · intro he
    obtain rfl : shell = "id -nG" := congrArg Call.shell he
    exact hc (Option.some.inj h).symm
  · intro he
    obtain rfl : shell = Cache.listingScript r.settings.cacheRoot := congrArg Call.shell he
    exact hc (Option.some.inj (h.symm.trans (Cache.head_listingScript _)))

variable (reply : Reply)

theorem acts_makeDir (dir : String) : (asked ⟨Runner.makeDirScript dir, []⟩ reply).Acts r :=
  acts_of_head (Runner.head_makeDirScript dir) (by decide) reply

theorem acts_delete (dir : String) (sums : List String) :
    (asked ⟨Runner.deleteScript dir sums, []⟩ reply).Acts r :=
  acts_of_head (Runner.head_deleteScript dir sums) (by decide) reply

theorem acts_done (dir sum script : String) :
    (asked ⟨Runner.doneScript dir sum script, []⟩ reply).Acts r :=
  acts_of_head (Runner.head_doneScript dir sum script) (by decide) reply

theorem acts_failed (dir sum script : String) :
    (asked ⟨Runner.failedScript dir sum script, []⟩ reply).Acts r :=
  acts_of_head (Runner.head_failedScript dir sum script) (by decide) reply

theorem acts_strictShell (elevate : Bool) (script : String) :
    (asked ⟨strictShell elevate script, []⟩ reply).Acts r :=
  acts_of_head (head_strictShell elevate script) (by cases elevate <;> decide) reply

end Exchange

/-! ### How a run ends at a failure -/

namespace Runner

/-- How a call fails, after all that has passed before: the error that it leads to, and what is sent
after it. -/
inductive Stumbles (r : Runner) (before : List Exchange) :
    Exchange → RunError → List Request → Prop
  | ungrouped {reply : Reply} {e : RunError} (h : readied reply = .error e) :
      Stumbles r before (.asked groupsCall reply) e []
  | unprepared {past : List Exchange} {reply reply' : Reply} {e : RunError}
      (asked : before = past ++ [.asked groupsCall reply]) (h : readied reply' = .error e) :
      Stumbles r before (.asked r.setupCall reply') e []
  | unreset (e : TransportError) : Stumbles r before (.closed (.error e)) (.transport e) []
  | unlisted {reply : Reply} {e : InventoryError}
      (h : inventoried r.settings.cacheRoot reply = .error e) :
      Stumbles r before (.asked r.listingCall reply) (.inventory e) []
  | unmade {t : String} {reply : Reply} {e : RunError}
      (h : bookkept t "create cache directory" reply = .error e) :
      Stumbles r before (.asked ⟨makeDirScript (r.dirOf t), []⟩ reply) e []
  | unswept {t : String} {stale : List String} {reply : Reply} {e : RunError}
      (h : bookkept t "delete stale markers" reply = .error e) :
      Stumbles r before (.asked ⟨deleteScript (r.dirOf t) stale, []⟩ reply) e []
  /-- The script of a command, which was told of as started, fails; then that is marked. -/
  | lapsed {past : List Exchange} {t : String} {a : PlannedAction} {reply : Reply} {e : RunError}
      (started : before = past ++ [.told (.commandStarted t a.index a.sum a.action.label)])
      (h : verdict t a reply.exit = .error e) :
      Stumbles r before (.asked ⟨r.wrap a.action.script, []⟩ reply) e
        [.call ⟨failedScript (r.dirOf t) a.sum a.action.script, []⟩]
  | unmarked {t : String} {a : PlannedAction} {reply : Reply} {e : RunError}
      (h : bookkept t "write success marker" reply = .error e) :
      Stumbles r before (.asked ⟨doneScript (r.dirOf t) a.sum a.action.script, []⟩ reply) e []

/-- What passes when something fails, with the error and what was sent up to the first call that
failed. -/
inductive Stops (r : Runner) : List Exchange → RunError → List Request → Prop
  | intro {before after : List Exchange} {x : Exchange} {e : RunError}
      (passed : ∀ y ∈ before, y.Passes r) (failed : ¬ x.Passes r)
      (stumbles : r.Stumbles before x e (requests after)) :
      Stops r (before ++ x :: after) e (requests (before ++ [x]))

/-- What passes while some requests are planned.  Either all come to a good end and are what is
sent, or the first that does not is the last of those that are sent. -/
inductive Comes (r : Runner) (planned : List Request) (xs : List Exchange) :
    Except RunError Unit → Prop
  | well (passed : ∀ x ∈ xs, x.Passes r) (sent : requests xs = planned) :
      Comes r planned xs (.ok ())
  | ill {e : RunError} {sent : List Request} (stops : r.Stops xs e sent)
      (part : sent <+: planned) : Comes r planned xs (.error e)

variable {xs ys before : List Exchange} {e : RunError} {planned sent last : List Request}
  {res : Except RunError Unit}

theorem Stumbles.after {x : Exchange} (h : r.Stumbles before x e last) (ys : List Exchange) :
    r.Stumbles (ys ++ before) x e last := by
  cases h with
  | ungrouped h => exact .ungrouped h
  | unprepared asked h => exact .unprepared (by rw [asked, List.append_assoc]) h
  | unreset e => exact .unreset e
  | unlisted h => exact .unlisted h
  | unmade h => exact .unmade h
  | unswept h => exact .unswept h
  | lapsed started h => exact .lapsed (by rw [started, List.append_assoc]) h
  | unmarked h => exact .unmarked h

namespace Stops

/-- What came to a good end may have passed before. -/
theorem after (h : r.Stops xs e sent) (hys : ∀ y ∈ ys, y.Passes r) :
    r.Stops (ys ++ xs) e (requests ys ++ sent) := by
  obtain ⟨passed, failed, stumbles⟩ := h
  rw [← requests_append, ← List.append_assoc, ← List.append_assoc]
  exact .intro (List.forall_mem_append.2 ⟨hys, passed⟩) failed (stumbles.after ys)

/-- Something may be told in the end. -/
theorem told (h : r.Stops xs e sent) (what : Happening) : r.Stops (xs ++ [.told what]) e sent := by
  obtain ⟨passed, failed, stumbles⟩ := h
  rw [List.append_assoc, List.cons_append]
  exact .intro passed failed (by simpa using stumbles)

theorem not_forall_passes (h : r.Stops xs e sent) : ¬ ∀ x ∈ xs, x.Passes r := by
  obtain ⟨-, failed, -⟩ := h
  exact fun hall => failed (hall _ (by simp))

end Stops

namespace Comes

theorem nil : r.Comes [] [] (.ok ()) := .well (by simp) rfl

theorem append (h : r.Comes planned xs (.ok ())) {planned' : List Request}
    (h' : r.Comes planned' ys res) : r.Comes (planned ++ planned') (xs ++ ys) res := by
  cases h with
  | well passed sent =>
    cases h' with
    | well passed' sent' =>
      have hsent : requests (xs ++ ys) = planned ++ planned' := by rw [requests_append, sent, sent']
      exact .well (List.forall_mem_append.2 ⟨passed, passed'⟩) hsent
    | ill stops part =>
      exact .ill (stops.after passed) (sent ▸ (List.prefix_append_right_inj _).2 part)

/-- Where something failed it makes no difference what else was planned. -/
theorem stop (h : r.Comes planned xs (.error e)) (planned' : List Request) :
    r.Comes (planned ++ planned') xs (.error e) := by
  cases h with
  | ill stops part => exact .ill stops (part.trans (List.prefix_append _ _))

/-- A call that fails, after which nothing is sent. -/
theorem failing {x : Exchange} (hx : ¬ x.Passes r) (h : r.Stumbles [] x e [])
    (hplanned : requests [x] = planned) : r.Comes planned [x] (.error e) :=
  hplanned ▸ .ill (@Stops.intro r [] [] x e (by simp) hx h) List.prefix_rfl

/-- A piece of bookkeeping. -/
theorem bookkeeping {task action : String} {call : Call} {reply : Reply}
    (hacts : (Exchange.asked call reply).Acts r)
    (hstumbles : ∀ e, bookkept task action reply = .error e →
      r.Stumbles [] (.asked call reply) e []) :
    r.Comes [.call call] [.asked call reply] (bookkept task action reply) := by
  have hpasses : (Exchange.asked call reply).Passes r ↔ bookkept task action reply = .ok () :=
    (Exchange.passes_asked_iff hacts.2).trans bookkept_eq_ok_iff.symm
  cases hb : bookkept task action reply with
  | ok u => exact .well (by simpa using hpasses.2 hb) rfl
  | error e => exact .failing (by rw [hpasses, hb]; simp) (hstumbles e hb) rfl

/-- What is told before and after makes no difference. -/
theorem told (h : r.Comes planned xs res) (first last : Happening) :
    r.Comes planned (.told first :: (xs ++ [.told last])) res := by
  cases h with
  | well passed sent =>
    exact .well (by simpa [or_imp, forall_and] using passed) (by simpa using sent)
  | ill stops part =>
    exact .ill (@Stops.after r _ [.told first] _ _ (stops.told last) (by simp)) part

end Comes

end Runner

/-! ### What deeds send -/

/-- What is sent for a deed that comes to a good end. -/
def Deed.sends (r : Runner) : Deed → List Request
  | makeDir t => [.call ⟨Runner.makeDirScript (r.dirOf t), []⟩]
  | skip _ _ => []
  | sweep t stale =>
    if stale = [] then [] else [.call ⟨Runner.deleteScript (r.dirOf t) stale, []⟩]
  | execute t a => [.call ⟨r.wrap a.action.script, []⟩,
      .call ⟨Runner.doneScript (r.dirOf t) a.sum a.action.script, []⟩]

variable {xs : List Exchange} {res : Except RunError Unit}

theorem comes_execute {t : String} {a : PlannedAction}
    (h : (Deed.execute t a).Concludes r xs res) :
    r.Comes ((Deed.execute t a).sends r) xs res := by
  have hpasses : ∀ reply : Reply, (Exchange.asked ⟨r.wrap a.action.script, []⟩ reply).Passes r ↔
      Runner.verdict t a reply.exit = .ok () := by
    intro reply
    have hacts : (Exchange.asked ⟨r.wrap a.action.script, []⟩ reply).Acts r :=
      Exchange.acts_strictShell reply _ _
    rw [Exchange.passes_asked_iff hacts.2, Reply.succeeded_iff, Runner.verdict_eq_ok_iff]
  cases h with
  | @executed _ _ reply xs reported hv marked =>
    -- up to the marker everything went well
    have hcommand : r.Comes [.call ⟨r.wrap a.action.script, []⟩]
        (.told (.commandStarted t a.index a.sum a.action.label) ::
          .asked ⟨r.wrap a.action.script, []⟩ reply :: (xs ++
            [.told (Runner.finished t a ⟨reply.exit, reply.millis⟩)])) (.ok ()) := by
      refine .well ?_ (by simp [Exchange.Reports.requests_eq reported.reports])
      simp only [List.forall_mem_cons, List.forall_mem_append]
      exact ⟨by simp, (hpasses reply).2 hv, fun x hx => (reported.reports x hx).passes, by simp,
        by simp⟩
    have hmark : r.Comes [.call ⟨Runner.doneScript (r.dirOf t) a.sum a.action.script, []⟩]
        [.asked ⟨Runner.doneScript (r.dirOf t) a.sum a.action.script, []⟩ marked]
        (bookkept t "write success marker" marked) :=
      .bookkeeping (Exchange.acts_done marked _ _ _) fun e he => .unmarked he
    simpa [Deed.sends] using hcommand.append hmark
  | @lapsed _ _ reply xs e reported hv marked =>
    -- whatever comes of marking the failure, the error is that of the command
    have hfailed : ¬ (Exchange.asked ⟨r.wrap a.action.script, []⟩ reply).Passes r := by
      rw [hpasses, hv]
      simp
    have hsent : requests (xs ++ [.told (Runner.finished t a ⟨reply.exit, reply.millis⟩),
        .asked ⟨Runner.failedScript (r.dirOf t) a.sum a.action.script, []⟩ marked]) =
          [.call ⟨Runner.failedScript (r.dirOf t) a.sum a.action.script, []⟩] := by
      simp [Exchange.Reports.requests_eq reported.reports]
    refine .ill (@Runner.Stops.intro r [.told (.commandStarted t a.index a.sum a.action.label)] _ _
      e (by simp) hfailed ?_) (List.prefix_append [_] [_])
    rw [hsent]
    exact .lapsed (List.nil_append _).symm hv

/-- What passes for a deed. -/
theorem Deed.Concludes.comes {d : Deed} (h : d.Concludes r xs res) :
    r.Comes (d.sends r) xs res := by
  cases d with
  | execute t a => exact comes_execute h
  | makeDir t =>
    cases h with
    | makeDir t reply => exact .bookkeeping (Exchange.acts_makeDir reply _) fun e he => .unmade he
  | skip t a =>
    cases h with
    | skip => exact .well (by simp) rfl
  | sweep t stale =>
    cases h with
    | clean => exact .nil
    | @swept _ _ reply hne hb =>
      have hdeleted : r.Comes _ _ (bookkept t "delete stale markers" reply) :=
        .bookkeeping (Exchange.acts_delete reply _ stale) fun e he => .unswept he
      rw [hb] at hdeleted
      rw [sends, if_neg hne]
      exact hdeleted.append (.well (by simp) rfl)
    | @unswept _ _ reply e hne hb =>
      have hdeleted : r.Comes _ _ (bookkept t "delete stale markers" reply) :=
        .bookkeeping (Exchange.acts_delete reply _ stale) fun e he => .unswept he
      rw [hb] at hdeleted
      rwa [sends, if_neg hne]

/-- What passes for deeds in order. -/
theorem Deed.ConcludesAll.comes {ds : List Deed} (h : Deed.ConcludesAll r ds xs res) :
    r.Comes (ds.flatMap (Deed.sends r)) xs res := by
  induction h with
  | nil => exact .nil
  | cons first _ ih => exact first.comes.append ih
  | stop first => exact first.comes.stop _

theorem Task.Concludes.comes {tasks : List Task} {inv : Inventory} {counts : Counts}
    (h : Task.Concludes r tasks inv xs res counts) :
    r.Comes ((Task.itinerary tasks inv).flatMap (Deed.sends r)) xs res := by
  induction h with
  | nil => exact .nil
  | cons first _ ih =>
    rw [Task.itinerary, List.flatMap_append]
    exact first.comes.append ih
  | stop first =>
    rw [Task.itinerary, List.flatMap_append]
    exact first.comes.stop _

/-- Inventories that hold the same markers lead to the same deeds. -/
theorem Task.itinerary_congr {tasks : List Task} {inv inv' : Inventory}
    (h : ∀ m, m ∈ inv ↔ m ∈ inv') : itinerary tasks inv = itinerary tasks inv' := by
  induction tasks generalizing inv inv' with
  | nil => rfl
  | cons task tasks ih =>
    have hplan : Plan.ofTask task (inv.sums task.name) = Plan.ofTask task (inv'.sums task.name) :=
      Plan.ofTask_congr task fun s => by rw [Inventory.mem_sums, Inventory.mem_sums, h]
    have herase : ∀ m, m ∈ inv.erase task.name ↔ m ∈ inv'.erase task.name := by
      intro m
      show m ∈ inv.markers.filter _ ↔ m ∈ inv'.markers.filter _
      rw [List.mem_filter, List.mem_filter]
      exact and_congr_left fun _ => h m
    rw [itinerary, itinerary, Task.deeds, Task.deeds, hplan, ih herase]

/-! ### What runs send -/

theorem readied_eq_ok {reply : Reply} {out : Output} (h : readied reply = .ok out) :
    reply.succeeded := by
  rw [readied] at h
  rw [Reply.succeeded]
  cases ho : reply.output with
  | error e => simp [ho] at h
  | ok out => cases hs : out.succeeded <;> simp [ho, hs] at h ⊢

theorem readied_eq_error {reply : Reply} {e : RunError} (h : readied reply = .error e) :
    reply.succeeded = false := by
  rw [readied] at h
  rw [Reply.succeeded]
  cases ho : reply.output with
  | error e => rfl
  | ok out => cases hs : out.succeeded <;> simp [ho, hs] at h ⊢

namespace Runner

/-- What is sent to prepare a host, if that comes to a good end. -/
def preparation (r : Runner) (member : Bool) : List Request :=
  if r.settings.manageGroup then
    .call groupsCall :: if member then [] else [.call r.setupCall, .reset]
  else []

/-- What is sent in a run that comes to a good end. -/
def agenda (r : Runner) (member : Bool) (tasks : List Task) (inv : Inventory) : List Request :=
  (r.preparation member ++ [.call r.listingCall]) ++
    (Task.itinerary tasks inv).flatMap (Deed.sends r)

theorem groupsCall_ne : groupsCall ≠ r.listingCall := by
  intro h
  have := congrArg (fun call : Call => call.shell.toList.take 2) h
  simp [Cache.listingScript] at this

theorem passes_groups_iff {reply : Reply} :
    (Exchange.asked groupsCall reply).Passes r ↔ reply.succeeded :=
  Exchange.passes_asked_iff groupsCall_ne

theorem passes_setup_iff {reply : Reply} :
    (Exchange.asked r.setupCall reply).Passes r ↔ reply.succeeded :=
  Exchange.passes_asked_iff (Exchange.acts_strictShell reply _ _).2

theorem Prepares.comes (h : r.Prepares xs res) (htrue : ∀ x ∈ xs, x.Truthful r member fs) :
    r.Comes (r.preparation member) xs res := by
  -- the groups are listed as they are, so what is planned is what is done
  have hmember : ∀ {reply : Reply} {ids : Output}, .asked groupsCall reply ∈ xs →
      readied reply = .ok ids → hasGroup ids.stdout r.settings.cacheGroup = member :=
    fun hx h => (htrue _ hx).groups _ _ rfl h
  cases h with
  | unmanaged hm =>
    rw [preparation, hm]
    exact .nil
  | @ungrouped reply e managed h =>
    rw [preparation, managed, if_pos rfl]
    have hstops : r.Comes [.call groupsCall] [.asked groupsCall reply] (.error e) :=
      .failing (by rw [passes_groups_iff, readied_eq_error h]; simp) (.ungrouped h) rfl
    exact hstops.stop _
  | @member reply ids managed h hg =>
    obtain rfl : true = member := hg.symm.trans (hmember (by simp) h)
    rw [preparation, managed, if_pos rfl, if_pos rfl]
    exact .well (by simpa [passes_groups_iff] using readied_eq_ok h) rfl
  | @unprepared reply reply' ids e managed h hg h' =>
    obtain rfl : false = member := hg.symm.trans (hmember (by simp) h)
    rw [preparation, managed, if_pos rfl, if_neg (by simp)]
    have hfailed : ¬ (Exchange.asked r.setupCall reply').Passes r := by
      rw [passes_setup_iff, readied_eq_error h']
      simp
    have hstops := @Stops.intro r [.asked groupsCall reply] [] (.asked r.setupCall reply') e
      (by simpa [passes_groups_iff] using readied_eq_ok h) hfailed
      (.unprepared (List.nil_append _).symm h')
    exact .ill hstops (List.prefix_append [_, _] [_])
  | @reset reply reply' ids out managed h hg h' result =>
    obtain rfl : false = member := hg.symm.trans (hmember (by simp) h)
    rw [preparation, managed, if_pos rfl, if_neg (by simp)]
    have hready : ∀ y ∈ [.asked groupsCall reply, .asked r.setupCall reply'],
        Exchange.Passes r y := by
      simpa [passes_groups_iff, passes_setup_iff] using ⟨readied_eq_ok h, readied_eq_ok h'⟩
    cases result with
    | ok u => exact .well (by simpa using hready) rfl
    | error e =>
      exact .ill (@Stops.intro r _ [] (.closed (.error e)) _ hready (by simp) (.unreset e))
        List.prefix_rfl

variable {tasks : List Task} {counts : Counts}

theorem inventoried_eq_error {reply : Reply} {e : InventoryError}
    (h : inventoried r.settings.cacheRoot reply = .error e) :
    ¬ (Exchange.asked r.listingCall reply).Passes r := by
  intro hpasses
  obtain ⟨inv, hinv⟩ := hpasses.accepted reply rfl
  rw [h] at hinv
  cases hinv

theorem passes_listing {reply : Reply} {inv : Inventory}
    (h : inventoried r.settings.cacheRoot reply = .ok inv) :
    (Exchange.asked r.listingCall reply).Passes r := by
  obtain ⟨out, hout, hs, -⟩ := inventoried_eq_ok_iff.1 h
  refine ⟨?_, fun reply' he => ?_⟩
  · show reply.succeeded
    rwa [Reply.succeeded, hout]
  · cases he
    exact ⟨inv, h⟩

/-- A run comes to an accepted listing, and then to the end of its agenda unless something fails; or
it fails before. -/
theorem Concludes.comes (h : r.Concludes tasks xs res counts)
    (htrue : ∀ x ∈ xs, x.Truthful r member fs) :
    (∃ inv, Known r.settings.cacheRoot fs inv ∧ r.Comes (r.agenda member tasks inv) xs res) ∨
      (res ≠ .ok () ∧ r.Comes (r.preparation member ++ [.call r.listingCall]) xs res) := by
  cases h with
  | unprepared h => exact .inr ⟨by simp, (h.comes htrue).stop _⟩
  | @unlisted ys reply e h listing =>
    rw [List.forall_mem_append] at htrue
    have hlisting : r.Comes [.call r.listingCall] [.asked r.listingCall reply]
        (.error (.inventory e)) := .failing (inventoried_eq_error listing) (.unlisted listing) rfl
    exact .inr ⟨by simp, (h.comes htrue.1).append hlisting⟩
  | @worked ys zs reply inv _ _ h listing work =>
    rw [List.forall_mem_append, List.forall_mem_cons] at htrue
    obtain ⟨out, hout, hs, hinv⟩ := inventoried_eq_ok_iff.1 listing
    have hlisting : r.Comes [.call r.listingCall] [.asked r.listingCall reply] (.ok ()) :=
      .well (by simpa using passes_listing listing) rfl
    refine .inl ⟨inv, ⟨out.stdout, htrue.2.1.listing _ _ rfl hout hs, hinv⟩, ?_⟩
    simpa [agenda] using ((h.comes htrue.1).append hlisting).append work.comes

/-- The same of a whole run. -/
theorem comes_provision {result : Except RunError Counts}
    (h : (r.provision tasks).Yields xs result) (htrue : ∀ x ∈ xs, x.Truthful r member fs) :
    ∃ res counts, result = res.map (fun _ => counts) ∧
      ((∃ inv, Known r.settings.cacheRoot fs inv ∧ r.Comes (r.agenda member tasks inv) xs res) ∨
        (res ≠ .ok () ∧ r.Comes (r.preparation member ++ [.call r.listingCall]) xs res)) := by
  obtain ⟨ys, res, counts, hrun, hresult, rfl⟩ := yields_provision.1 h
  rw [List.forall_mem_cons, List.forall_mem_append] at htrue
  refine ⟨res, counts, hresult, ?_⟩
  rcases hrun.comes htrue.2.1 with ⟨inv, hknown, hcomes⟩ | ⟨hne, hcomes⟩
  · exact .inl ⟨inv, hknown, hcomes.told _ _⟩
  · exact .inr ⟨hne, hcomes.told _ _⟩

/-- A run in which all goes well is one to the end of the agenda. -/
theorem requests_of_passes {result : Except RunError Counts}
    (h : (r.provision tasks).Yields xs result) (htrue : ∀ x ∈ xs, x.Truthful r member fs)
    (hpass : ∀ x ∈ xs, x.Passes r) :
    ∃ inv, Known r.settings.cacheRoot fs inv ∧ requests xs = r.agenda member tasks inv := by
  obtain ⟨res, counts, -, ⟨inv, hknown, hcomes⟩ | ⟨hne, hcomes⟩⟩ := comes_provision h htrue
  · cases hcomes with
    | well _ sent => exact ⟨inv, hknown, sent⟩
    | ill stops _ => exact absurd hpass stops.not_forall_passes
  · cases hcomes with
    | well => exact absurd rfl hne
    | ill stops _ => exact absurd hpass stops.not_forall_passes

theorem agenda_eq {inv inv' : Inventory} (h : Known r.settings.cacheRoot fs inv)
    (h' : Known r.settings.cacheRoot fs inv') :
    r.agenda member tasks inv = r.agenda member tasks inv' := by
  rw [agenda, agenda, Task.itinerary_congr (h'.mem_iff h)]

/-- The first call that fails ends a run.  If no call fails the run comes to a good end.  Otherwise
its error is that of the first call that failed; what was sent up to that call is the first part of
what is sent in any run on such a host in which no call fails; and after it nothing is sent, but
that the failure of a command is marked, whatever comes of that. -/
theorem stops_at_first_failure {result : Except RunError Counts}
    (h : (r.provision tasks).Yields xs result) (htrue : ∀ x ∈ xs, x.Truthful r member fs) :
    ((∀ x ∈ xs, x.Passes r) ∧ (∃ counts, result = .ok counts) ∧
      ∀ ys result', (r.provision tasks).Yields ys result' →
        (∀ y ∈ ys, y.Truthful r member fs) → (∀ y ∈ ys, y.Passes r) → requests xs = requests ys) ∨
    ∃ before x after e, xs = before ++ x :: after ∧ result = .error e ∧
      (∀ y ∈ before, y.Passes r) ∧ ¬ x.Passes r ∧ r.Stumbles before x e (requests after) ∧
      ∀ ys result', (r.provision tasks).Yields ys result' →
        (∀ y ∈ ys, y.Truthful r member fs) → (∀ y ∈ ys, y.Passes r) →
          requests (before ++ [x]) <+: requests ys := by
  obtain ⟨res, counts, rfl, hcomes⟩ := comes_provision h htrue
  -- whichever way it came, what was planned is a first part of what is sent if all goes well
  have hplanned : ∃ planned, r.Comes planned xs res ∧ ∀ ys result',
      (r.provision tasks).Yields ys result' → (∀ y ∈ ys, y.Truthful r member fs) →
        (∀ y ∈ ys, y.Passes r) →
          planned <+: requests ys ∧ (res = .ok () → planned = requests ys) := by
    rcases hcomes with ⟨inv, hknown, hcomes⟩ | ⟨hne, hcomes⟩
    · refine ⟨_, hcomes, fun ys result' hys htrue' hpass => ?_⟩
      obtain ⟨inv', hknown', hsent⟩ := requests_of_passes hys htrue' hpass
      rw [hsent, agenda_eq hknown hknown']
      exact ⟨List.prefix_rfl, fun _ => rfl⟩
    · refine ⟨_, hcomes, fun ys result' hys htrue' hpass => ?_⟩
      obtain ⟨inv', -, hsent⟩ := requests_of_passes hys htrue' hpass
      rw [hsent, agenda]
      exact ⟨List.prefix_append _ _, fun hok => absurd hok hne⟩
  obtain ⟨planned, hcomes, hall⟩ := hplanned
  cases hcomes with
  | well passed sent =>
    refine .inl ⟨passed, ⟨counts, rfl⟩, fun ys result' hys htrue' hpass => ?_⟩
    rw [sent]
    exact (hall ys result' hys htrue' hpass).2 rfl
  | ill stops part =>
    obtain ⟨passed, failed, stumbles⟩ := stops
    exact .inr ⟨_, _, _, _, rfl, rfl, passed, failed, stumbles,
      fun ys result' hys htrue' hpass => part.trans (hall ys result' hys htrue' hpass).1⟩

end Runner

/-! ### Runs in which all goes well -/

theorem Exchange.Reports.acts {x : Exchange} (h : x.Reports) : x.Acts r := by
  cases x with
  | asked call reply => exact absurd h id
  | closed result => trivial
  | told what => trivial
  | logged job result => trivial

/-- What passes for a deed asks nothing about the host. -/
theorem Deed.Concludes.acts {d : Deed} (h : d.Concludes r xs res) : ∀ x ∈ xs, x.Acts r := by
  have hcommand : ∀ (script : String) (reply : Reply),
      (Exchange.asked ⟨r.wrap script, []⟩ reply).Acts r :=
    fun script reply => Exchange.acts_strictShell reply _ _
  cases h with
  | makeDir t reply => simpa using Exchange.acts_makeDir reply _
  | skip t a => simp [Exchange.Acts]
  | clean t => simp
  | @swept _ _ reply hne hb =>
    simpa [Exchange.Acts] using Exchange.acts_delete (r := r) reply _ _
  | unswept hne hb => simpa using Exchange.acts_delete _ _ _
  | executed reported hv marked =>
    simp only [List.forall_mem_cons, List.forall_mem_append]
    exact ⟨trivial, hcommand _ _, fun x hx => (reported.reports x hx).acts, trivial,
      Exchange.acts_done marked _ _ _, by simp⟩
  | lapsed reported hv marked =>
    simp only [List.forall_mem_cons, List.forall_mem_append]
    exact ⟨trivial, hcommand _ _, fun x hx => (reported.reports x hx).acts, trivial,
      Exchange.acts_failed marked _ _ _, by simp⟩

theorem Deed.ConcludesAll.acts {ds : List Deed} (h : Deed.ConcludesAll r ds xs res) :
    ∀ x ∈ xs, x.Acts r := by
  induction h with
  | nil => simp
  | cons first _ ih => exact List.forall_mem_append.2 ⟨first.acts, ih⟩
  | stop first => exact first.acts

theorem Task.Concludes.acts {tasks : List Task} {inv : Inventory} {counts : Counts}
    (h : Task.Concludes r tasks inv xs res counts) : ∀ x ∈ xs, x.Acts r := by
  induction h with
  | nil => simp
  | cons first _ ih => exact List.forall_mem_append.2 ⟨first.acts, ih⟩
  | stop first => exact first.acts

/-- Every deed can come to a good end. -/
theorem Deed.exists_done (r : Runner) (d : Deed) : ∃ xs, d.Concludes r xs (.ok ()) := by
  cases d with
  | makeDir t => exact ⟨_, .makeDir t (.saying "")⟩
  | skip t a => exact ⟨_, .skip t a⟩
  | sweep t stale =>
    by_cases hne : stale = []
    · exact ⟨[], hne ▸ .clean t⟩
    · exact ⟨_, .swept hne (bookkept_eq_ok_iff.2 (rfl : (Reply.saying "").succeeded))⟩
  | execute t a => exact ⟨_, .executed (.logged {}) rfl (.saying "")⟩

theorem Deed.exists_allDone (r : Runner) (ds : List Deed) :
    ∃ xs, Deed.ConcludesAll r ds xs (.ok ()) := by
  induction ds with
  | nil => exact ⟨[], .nil⟩
  | cons d ds ih =>
    obtain ⟨xs, hd⟩ := d.exists_done r
    obtain ⟨ys, hds⟩ := ih
    exact ⟨_, .cons hd hds⟩

theorem Task.exists_done (r : Runner) (tasks : List Task) (inv : Inventory) :
    ∃ xs counts, Task.Concludes r tasks inv xs (.ok ()) counts := by
  induction tasks generalizing inv with
  | nil => exact ⟨[], .zero, .nil inv⟩
  | cons task tasks ih =>
    obtain ⟨xs, hfirst⟩ := Deed.exists_allDone r (task.deeds (inv.sums task.name))
    obtain ⟨ys, counts, hothers⟩ := ih (inv.erase task.name)
    exact ⟨_, _, .cons hfirst hothers⟩

namespace Runner

variable {tasks : List Task} {inv : Inventory} {ids listing : String}

/-- A host that answers with its groups can be prepared. -/
theorem exists_prepared (r : Runner) (fs : Files)
    (hids : hasGroup ids r.settings.cacheGroup = member) :
    ∃ xs, r.Prepares xs (.ok ()) ∧ ∀ x ∈ xs, x.Truthful r member fs := by
  have hgroups : (Exchange.asked groupsCall (.saying ids)).Truthful r member fs := by
    refine ⟨fun reply out he hout => ?_,
      fun reply out he => absurd (Exchange.asked.inj he).1 groupsCall_ne⟩
    cases he
    rw [readied_saying] at hout
    cases hout
    exact hids
  have hsetup : (Exchange.asked r.setupCall (.saying "")).Truthful r member fs :=
    (Exchange.acts_strictShell _ _ _).truthful
  cases hm : r.settings.manageGroup with
  | false => exact ⟨[], .unmanaged hm, by simp⟩
  | true =>
    cases member with
    | true => exact ⟨_, .member hm (readied_saying ids) hids, by simpa using hgroups⟩
    | false =>
      refine ⟨_, .reset hm (readied_saying ids) hids (readied_saying "") (.ok ()), ?_⟩
      have hclosed : (Exchange.closed (.ok ())).Truthful r false fs :=
        Exchange.Acts.truthful trivial
      simpa using ⟨hgroups, hsetup, hclosed⟩

/-- On a host whose listing is accepted there are runs that work on tasks in every way in which
these can be worked on. -/
theorem exists_worked {tasks : List Task} {counts : Counts} (hl : fs.Lists listing)
    (hinv : Inventory.ofListing r.settings.cacheRoot listing = .ok inv)
    (hids : hasGroup ids r.settings.cacheGroup = member)
    (hwork : Task.Concludes r tasks inv xs res counts) :
    ∃ ys, (r.provision tasks).Yields ys (res.map fun _ => counts) ∧
      ∀ y ∈ ys, y.Truthful r member fs := by
  obtain ⟨zs, hprepares, hzs⟩ := exists_prepared r fs hids
  have hlisting : inventoried r.settings.cacheRoot (.saying listing) = .ok inv :=
    inventoried_eq_ok_iff.2 ⟨_, Reply.output_saying listing, rfl, hinv⟩
  have htrue : (Exchange.asked r.listingCall (.saying listing)).Truthful r member fs := by
    refine ⟨fun reply out he => absurd (Exchange.asked.inj he).1.symm groupsCall_ne,
      fun reply out he hout _ => ?_⟩
    cases he
    rw [Reply.output_saying] at hout
    cases hout
    exact hl
  have htold : ∀ what, (Exchange.told what).Truthful r member fs :=
    fun what => Exchange.Acts.truthful trivial
  refine ⟨_, yields_provision.2 ⟨_, _, _, .worked hprepares hlisting hwork, rfl, rfl⟩, ?_⟩
  simp only [List.forall_mem_cons, List.forall_mem_append]
  exact ⟨htold _, ⟨hzs, htrue, fun x hx => (hwork.acts x hx).truthful⟩, htold _, by simp⟩

/-- On such a host there is a run in which all goes well. -/
theorem exists_passing (tasks : List Task) (hl : fs.Lists listing)
    (hinv : Inventory.ofListing r.settings.cacheRoot listing = .ok inv)
    (hids : hasGroup ids r.settings.cacheGroup = member) :
    ∃ xs counts, (r.provision tasks).Yields xs (.ok counts) ∧
      (∀ x ∈ xs, x.Truthful r member fs) ∧ ∀ x ∈ xs, x.Passes r := by
  obtain ⟨xs, counts, hwork⟩ := Task.exists_done r tasks inv
  obtain ⟨ys, hyields, htrue⟩ := exists_worked hl hinv hids hwork
  refine ⟨ys, counts, hyields, htrue, ?_⟩
  obtain ⟨res, counts', hres, hcomes⟩ := comes_provision hyields htrue
  cases res with
  | error e => cases hres
  | ok u =>
    rcases hcomes with ⟨inv', -, hcomes⟩ | ⟨hne, -⟩
    · cases hcomes with
      | well passed _ => exact passed
    · exact absurd rfl hne

/-- A task that fails halfway, and what is sent for it on the same host if all goes well. -/
theorem halfway_stops : ∃ xs ys e counts, (byDefault.provision [.halfway]).Yields xs (.error e) ∧
    (byDefault.provision [.halfway]).Yields ys (.ok counts) ∧ (∀ y ∈ ys, y.Passes byDefault) ∧
      ∃ before x after, xs = before ++ x :: after ∧ ¬ x.Passes byDefault ∧
        byDefault.Stumbles before x e (requests after) ∧
        requests (before ++ [x]) <+: requests ys := by
  have hl : (∅ : Files).Lists "" := ⟨[], by simp, rfl⟩
  have hinv : Inventory.ofListing byDefault.settings.cacheRoot "" = .ok .empty := rfl
  have hids : hasGroup "" byDefault.settings.cacheGroup = false := by decide
  obtain ⟨zs, e, hzs, -⟩ := Task.exists_halfway
  have hwork : Task.Concludes byDefault [.halfway] .empty zs (.error e) .zero := .stop hzs
  obtain ⟨xs, hxs, htrue⟩ := exists_worked hl hinv hids hwork
  obtain ⟨ys, counts, hys, htrue', hpass⟩ := exists_passing [.halfway] hl hinv hids
  rcases stops_at_first_failure hxs htrue with ⟨-, ⟨c, hc⟩, -⟩ |
    ⟨before, x, after, e', hbefore, he, -, hfailed, hstumbles, hpart⟩
  · cases hc
  · obtain rfl := Except.error.inj he
    exact ⟨xs, ys, e, counts, hxs, hys, hpass, before, x, after, hbefore, hfailed, hstumbles,
      hpart ys _ hys htrue' hpass⟩

end Runner

end Provisioning
