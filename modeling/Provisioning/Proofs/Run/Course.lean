import Provisioning.Proofs.Host.World
import Provisioning.Proofs.Run.Deed

/-!
# The course of a deed

What passes while a run does one thing, and what is left of it when the run is cut off in the middle
or the thing fails.  `acts` picks out of all that passes what concerns commands: that one is
skipped, or that its script is sent to the host.

* `goes_perform` : the course of every deed: a part of its operations on markers is done, all of
  them if it comes to a good end; no other script that it sends touches a file; and it shows as
  that deed.
-/

namespace Provisioning

/-! ### Acts -/

/-- What a run does about a command. -/
inductive Act where
  /-- The command is skipped. -/
  | skipped (task : String) (index : Nat)
  /-- The script of the command is sent, right after it was told that it would be. -/
  | sent (task : String) (index : Nat) (call : Call) (reply : Reply)

/-- What is done about commands, in order. -/
def acts : List Exchange → List Act
  | .told (.commandCached task index _ _) :: xs => .skipped task index :: acts xs
  | .told (.commandStarted task index _ _) :: .asked call reply :: xs =>
    .sent task index call reply :: acts xs
  | _ :: xs => acts xs
  | [] => []

/-- What passed at some moments. -/
def exchanges {σ : Type} (ms : List (Moment σ)) : List Exchange := ms.map Moment.exchange

@[simp] theorem exchanges_nil {σ : Type} : exchanges ([] : List (Moment σ)) = [] := rfl

@[simp] theorem exchanges_cons {σ : Type} (m : Moment σ) (ms : List (Moment σ)) :
    exchanges (m :: ms) = m.exchange :: exchanges ms := rfl

@[simp] theorem exchanges_append {σ : Type} (a b : List (Moment σ)) :
    exchanges (a ++ b) = exchanges a ++ exchanges b := List.map_append

@[simp] theorem exchanges_map {σ : Type} (xs : List Exchange) (w : σ) :
    exchanges (xs.map fun x => (⟨x, w⟩ : Moment σ)) = xs := by
  rw [exchanges, List.map_map]
  exact List.map_id xs

/-- Whether an exchange says nothing about commands being skipped or sent. -/
def Exchange.Quiet : Exchange → Prop
  | .told (.commandCached ..) | .told (.commandStarted ..) => False
  | _ => True

@[simp] theorem acts_cons_quiet {x : Exchange} (h : x.Quiet) (xs : List Exchange) :
    acts (x :: xs) = acts xs := by
  rw [acts]
  · rintro task index sum label rfl
    exact h
  · rintro task index sum label call reply rest rfl
    exact absurd h id

theorem acts_append_quiet {xs : List Exchange} (h : ∀ x ∈ xs, x.Quiet) (ys : List Exchange) :
    acts (xs ++ ys) = acts ys := by
  induction xs with
  | nil => rfl
  | cons x xs ih =>
    rw [List.forall_mem_cons] at h
    rw [List.cons_append, acts_cons_quiet h.1, ih h.2]

theorem acts_quiet {xs : List Exchange} (h : ∀ x ∈ xs, x.Quiet) : acts xs = [] := by
  simpa [acts] using acts_append_quiet h []

/-- What is told in the end, and is quiet, adds nothing. -/
theorem acts_append_told {what : Happening} (hq : (Exchange.told what).Quiet)
    (xs : List Exchange) : acts (xs ++ [.told what]) = acts xs := by
  fun_induction acts xs with
  | case1 t i s l xs ih => rw [List.cons_append, acts, ih]
  | case2 t i s l call reply xs ih => rw [List.cons_append, List.cons_append, acts, ih]
  | case3 x xs h₁ h₂ ih =>
    rw [List.cons_append, acts, ih]
    · exact h₁
    · -- what is told in the end could only have been a reply that is missing, and it is none
      intro t i s l call reply rest hx hxs
      cases xs with
      | nil => cases hxs
      | cons y ys => exact h₂ t i s l call reply ys hx (by rw [(List.cons.inj hxs).1])
  | case4 =>
    rw [List.nil_append, acts_cons_quiet hq]
    rfl

/-- The commands that are skipped are those that are told of as such. -/
theorem skipped_mem_acts_iff {xs : List Exchange} {t : String} {i : Nat} :
    .skipped t i ∈ acts xs ↔ ∃ sum label, .told (.commandCached t i sum label) ∈ xs := by
  fun_induction acts xs with
  | case1 t' i' s' l' xs ih =>
    rw [List.mem_cons, ih]
    constructor
    · rintro (he | ⟨s, l, h⟩)
      · obtain ⟨rfl, rfl⟩ := Act.skipped.inj he
        exact ⟨s', l', List.mem_cons_self⟩
      · exact ⟨s, l, List.mem_cons_of_mem _ h⟩
    · rintro ⟨s, l, h⟩
      rcases List.mem_cons.1 h with he | h
      · cases he
        exact .inl rfl
      · exact .inr ⟨s, l, h⟩
  | case2 t' i' s' l' call reply xs ih =>
    simp [ih]
  | case3 x xs h₁ h₂ ih =>
    rw [ih]
    constructor
    · rintro ⟨s, l, h⟩
      exact ⟨s, l, List.mem_cons_of_mem _ h⟩
    · rintro ⟨s, l, h⟩
      rcases List.mem_cons.1 h with he | h
      · exact absurd he.symm (h₁ _ _ _ _)
      · exact ⟨s, l, h⟩
  | case4 => simp

/-! ### Operations of deeds -/

namespace Deed

variable (root : String)

/-- What a deed does to the markers if it comes to a good end. -/
def ops : Deed → List FileOp
  | makeDir _ | skip _ _ => []
  | sweep t stale => stale.map fun s => .remove (Mark.success.path (Cache.taskDir root t) s)
  | execute t a => [.write (Mark.success.path (Cache.taskDir root t) a.sum),
      .remove (Mark.failure.path (Cache.taskDir root t) a.sum)]

/-- What a deed does to the markers if its command fails. -/
def lapse : Deed → List FileOp
  | execute t a => [.write (Mark.failure.path (Cache.taskDir root t) a.sum)]
  | _ => []

/-- A deed concerns no other files than markers of its task. -/
theorem path_of_mem_ops {d : Deed} {op : FileOp} (h : op ∈ d.ops root ∨ op ∈ d.lapse root) :
    ∃ m s, op.path = Mark.path m (Cache.taskDir root d.task) s := by
  cases d with
  | makeDir t => simp [ops, lapse] at h
  | skip t a => simp [ops, lapse] at h
  | sweep t stale =>
    simp only [ops, lapse, List.mem_map, List.not_mem_nil, or_false] at h
    obtain ⟨s, -, rfl⟩ := h
    exact ⟨.success, s, rfl⟩
  | execute t a =>
    simp only [ops, lapse, List.mem_cons, List.not_mem_nil, or_false] at h
    rcases h with (rfl | rfl) | rfl
    · exact ⟨.success, a.sum, rfl⟩
    · exact ⟨.failure, a.sum, rfl⟩
    · exact ⟨.failure, a.sum, rfl⟩

theorem isMarker_of_mem_ops {d : Deed} {op : FileOp} (h : op ∈ d.ops root ∨ op ∈ d.lapse root) :
    Files.IsMarker op.path := by
  obtain ⟨m, s, hpath⟩ := path_of_mem_ops root h
  rw [hpath]
  exact Files.isMarker_path _ _ _

/-- How a deed that came to a good end shows. -/
def Shows (r : Runner) : Deed → List Act → Prop
  | makeDir _, as | sweep _ _, as => as = []
  | skip t a, as => as = [.skipped t a.index]
  | execute t a, as => ∃ reply : Reply, reply.exit = .ok 0 ∧
      as = [.sent t a.index ⟨r.wrap a.action.script, []⟩ reply]

/-- How a deed under way shows, if it shows at all. -/
def Begins (r : Runner) : Deed → Act → Prop
  | makeDir _, _ | sweep _ _, _ => False
  | skip t a, act => act = .skipped t a.index
  | execute t a, act => ∃ reply, act = .sent t a.index ⟨r.wrap a.action.script, []⟩ reply

/-- What a deed that is not done has done to the markers, and how it shows.  It begins its own
operations only when it shows as a deed that is done does. -/
inductive Halfway (r : Runner) (part : Failing) : Option Deed → List FileOp → List Act → Prop
  /-- Nothing is done yet. -/
  | idle (d? : Option Deed) : Halfway r part d? [] []
  /-- It shows, but nothing is done to the markers. -/
  | begun {d : Deed} {act : Act} (h : d.Begins r act) : Halfway r part (some d) [] [act]
  /-- It fails with a part of its own operations. -/
  | partly {d : Deed} {did : List FileOp} {as : List Act} (h : d.Shows r as)
      (hd : part.leaves (d.ops r.settings.cacheRoot) did) : Halfway r part (some d) did as
  /-- Its command failed. -/
  | lapsed {d : Deed} {did : List FileOp} {act : Act} (h : d.Begins r act)
      (hd : part.leaves (d.lapse r.settings.cacheRoot) did) : Halfway r part (some d) did [act]

end Deed

/-! ### Effects -/

/-- What all that was sent does to files, in order. -/
def effects {σ : Type} (ms : List (Moment σ)) : List FileOp := ms.flatMap (·.exchange.effect)

@[simp] theorem effects_nil {σ : Type} : effects ([] : List (Moment σ)) = [] := rfl

@[simp] theorem effects_cons {σ : Type} (m : Moment σ) (ms : List (Moment σ)) :
    effects (m :: ms) = m.exchange.effect ++ effects ms := rfl

@[simp] theorem effects_append {σ : Type} (a b : List (Moment σ)) :
    effects (a ++ b) = effects a ++ effects b := List.flatMap_append

/-- A marker that was there is left unless its deletion was sent. -/
theorem mem_of_goes {α : Type} {root p : String} {part : Failing} {fs fs' : Files}
    {ms : List (Moment Files)} {s s' : Script α} (h : s.Goes (Allowed root part) fs ms s' fs')
    (hm : Files.IsMarker p) (hp : p ∈ fs) (hno : .remove p ∉ effects ms) : p ∈ fs' := by
  induction h with
  | rest => exact hp
  | next hs hw _ ih =>
    rw [effects_cons, List.mem_append, not_or] at hno
    exact ih (hw.mem_of_not_remove_mem hm hp hno.1) hno.2

/-- A marker that was not there before was made when that was sent. -/
theorem exists_write_of_goes {α : Type} {root p : String} {part : Failing} {fs fs' : Files}
    {ms : List (Moment Files)} {s s' : Script α} (h : s.Goes (Allowed root part) fs ms s' fs')
    (hm : Files.IsMarker p) (hold : p ∉ fs) (hp : p ∈ fs') :
    ∃ m ∈ ms, .write p ∈ m.exchange.effect ∧ p ∈ m.after := by
  induction h with
  | rest => exact absurd hp hold
  | @next _ _ _ fs fs₁ _ x ms hs hw _ ih =>
    by_cases hp₁ : p ∈ fs₁
    · exact ⟨⟨x, fs₁⟩, List.mem_cons_self, hw.write_mem_of_not_mem hm hold hp₁, hp₁⟩
    · obtain ⟨m, hmem, hrest⟩ := ih hp₁ hp
      exact ⟨m, List.mem_cons_of_mem _ hmem, hrest⟩

/-! ### Pieces of bookkeeping -/

/-- The result of a piece of bookkeeping that was answered. -/
def bookkept (task action : String) (reply : Reply) : Except RunError Unit :=
  match reply.output with
  | .error e => .error (.transport e)
  | .ok out =>
    if out.succeeded then .ok () else .error (.bookkeeping task action out.exitCode out.complaint)

theorem bookkept_eq_ok_iff {task action : String} {reply : Reply} :
    bookkept task action reply = .ok () ↔ reply.succeeded := by
  rw [bookkept, Reply.succeeded]
  cases reply.output with
  | error e => simp
  | ok out => cases h : out.succeeded <;> simp [h]

theorem run_bookkeep (task action script : String) :
    (Runner.bookkeep task action script).run =
      .ask ⟨script, []⟩ fun reply => .done (bookkept task action reply) := by
  show Script.ask _ _ = Script.ask _ _
  congr 1
  funext reply
  show (match reply.output with
    | .error e => throw (RunError.transport e)
    | .ok out =>
      if out.succeeded then pure ()
      else throw (RunError.bookkeeping task action out.exitCode out.complaint) : Attempt Unit).run
        = _
  rw [bookkept]
  cases reply.output with
  | error e => rfl
  | ok out => cases h : out.succeeded <;> simp [h] <;> rfl

variable {root : String} {part : Failing} {fs fs' : Files} {ms : List (Moment Files)}

/-- A piece of bookkeeping either is not begun or is one exchange. -/
theorem goes_bookkeep {task action script : String} {s' : Script (Except RunError Unit)}
    (h : (Runner.bookkeep task action script).run.Goes (Allowed root part) fs ms s' fs') :
    (ms = [] ∧ fs' = fs ∧ ∀ u, s' ≠ .done (.ok u)) ∨
      ∃ reply, ms = [⟨.asked ⟨script, []⟩ reply, fs'⟩] ∧
        Allowed root part fs (.asked ⟨script, []⟩ reply) fs' ∧
        s' = .done (bookkept task action reply) := by
  rw [run_bookkeep] at h
  rcases Script.goes_ask h with ⟨rfl, rfl, rfl⟩ | ⟨reply, fs₁, rest, rfl, hw, ht⟩
  · exact .inl ⟨rfl, rfl, fun u hu => by cases hu⟩
  · obtain ⟨rfl, rfl, rfl⟩ := Script.goes_done ht
    exact .inr ⟨reply, rfl, hw, rfl⟩

/-! ### Where nothing happens -/

/-- Whether an exchange sends nothing, and says nothing about commands being skipped or sent. -/
def Exchange.Hushed : Exchange → Prop
  | .asked _ _ => False
  | x => x.Quiet

theorem Exchange.Hushed.harmless {x : Exchange} (h : x.Hushed) : x.Quiet ∧ x.effect = [] := by
  cases x with
  | asked call reply => exact absurd h id
  | closed result => exact ⟨trivial, rfl⟩
  | told what => exact ⟨h, rfl⟩
  | logged job result => exact ⟨trivial, rfl⟩

/-- What passes while nothing happens to the markers. -/
structure Uneventful (fs : Files) (ms : List (Moment Files)) (fs' : Files) : Prop where
  /-- The markers stay. -/
  markers : fs'.markers = fs.markers
  /-- No command is skipped or sent. -/
  quiet : ∀ x ∈ exchanges ms, x.Quiet
  /-- Nothing that is sent has an effect. -/
  sent : effects ms = []

theorem Uneventful.nil (fs : Files) : Uneventful fs [] fs := ⟨rfl, by simp, rfl⟩

theorem Uneventful.cons {fs₁ : Files} {m : Moment Files} (hm : fs₁.markers = fs.markers)
    (hq : m.exchange.Quiet) (he : m.exchange.effect = []) (h : Uneventful fs₁ ms fs') :
    Uneventful fs (m :: ms) fs' :=
  ⟨h.markers.trans hm, List.forall_mem_cons.2 ⟨hq, h.quiet⟩,
    by rw [effects_cons, he, h.sent, List.append_nil]⟩

theorem Uneventful.append {fs₁ : Files} {ms₁ : List (Moment Files)} (h₁ : Uneventful fs ms₁ fs₁)
    (h : Uneventful fs₁ ms fs') : Uneventful fs (ms₁ ++ ms) fs' where
  markers := h.markers.trans h₁.markers
  quiet := by
    rw [exchanges_append]
    exact List.forall_mem_append.2 ⟨h₁.quiet, h.quiet⟩
  sent := by rw [effects_append, h₁.sent, h.sent, List.append_nil]

/-- While nothing passes but what is quiet and has no effect, nothing happens to the markers. -/
theorem Script.Goes.uneventful {α : Type} {s s' : Script α}
    (h : s.Goes (Allowed root part) fs ms s' fs')
    (hms : ∀ m ∈ ms, m.exchange.Quiet ∧ m.exchange.effect = []) : Uneventful fs ms fs' := by
  induction h with
  | rest => exact .nil _
  | next _ hw _ ih =>
    rw [List.forall_mem_cons] at hms
    exact .cons (hw.markers_of_effect_nil hms.1.2) hms.1.1 hms.1.2 (ih hms.2)

/-! ### Deeds as scripts -/

namespace Runner
variable (r : Runner)

/-- What is done with the reply to the script of a command: its output is told of and logged. -/
def account (t dir : String) (a : PlannedAction) : Reply → Script Ending
  | .refused e => .done ⟨.error e, 0⟩
  | .session s => do
    tellLines t a.sum (published (allReaderSteps s))
    .log ⟨dir, a.sum, sent (allReaderSteps s)⟩ fun
      | .ok () => .done ⟨s.exit, s.millis⟩
      | .error e => .tell (.logFailed t a.sum e.message) (.done ⟨s.exit, s.millis⟩)

/-- What is done when a command has ended: that is told of, and the command is marked. -/
def settle (t dir : String) (a : PlannedAction) (ending : Ending) : Attempt Unit :=
  match ending.exit with
  | .error e => do
    tell (.commandFinished t a.index a.sum (-1) ending.millis (some (RunError.transport e).message))
    markFailed t dir a.sum a.action.script
    throw (.transport e)
  | .ok code => do
    tell (.commandFinished t a.index a.sum code ending.millis none)
    if code = 0 then markDone t dir a.sum a.action.script
    else
      markFailed t dir a.sum a.action.script
      throw (.command t a.index a.sum code)

theorem run_execute (t dir : String) (a : PlannedAction) :
    (r.execute t dir a).run =
      .tell (.commandStarted t a.index a.sum a.action.label)
        (.ask ⟨r.wrap a.action.script, []⟩ fun reply =>
          account t dir a reply >>= fun ending => (settle t dir a ending).run) := by
  show Script.tell _ (Script.ask _ _) = Script.tell _ (Script.ask _ _)
  congr 2
  funext reply
  show ((account t dir a reply).bind (Script.done ∘ Except.ok)).bind
    (ExceptT.bindCont (settle t dir a)) = _
  exact bind_assoc (account t dir a reply) _ _

theorem run_sweep (t s : String) (ss : List String) :
    (r.perform (.sweep t (s :: ss))).run =
      .ask ⟨deleteScript (r.dirOf t) (s :: ss), []⟩ fun reply =>
        match bookkept t "delete stale markers" reply with
        | .error e => .done (.error e)
        | .ok () => .tell (.cacheInvalidated t (s :: ss)) (.done (.ok ())) := by
  rw [perform, invalidate]
  simp only [List.isEmpty_cons, Bool.false_eq_true, if_false, bind_assoc, pure_bind,
    ExceptT.run_bind, run_bookkeep]
  show Script.ask _ _ = Script.ask _ _
  congr 1
  funext reply
  show Script.bind (.done (bookkept t "delete stale markers" reply)) _ = _
  cases bookkept t "delete stale markers" reply <;> rfl

/-- What is told of a command that has ended. -/
def finished (t : String) (a : PlannedAction) (ending : Ending) : Happening :=
  match ending.exit with
  | .error e => .commandFinished t a.index a.sum (-1) ending.millis
      (some (RunError.transport e).message)
  | .ok code => .commandFinished t a.index a.sum code ending.millis none

/-- The result of a command that ended in some way, as long as it is not marked. -/
def verdict (t : String) (a : PlannedAction) : Except TransportError Int → Except RunError Unit
  | .error e => .error (.transport e)
  | .ok code => if code = 0 then .ok () else .error (.command t a.index a.sum code)

theorem verdict_eq_ok_iff {t : String} {a : PlannedAction} {exit : Except TransportError Int}
    {u : Unit} : verdict t a exit = .ok u ↔ exit = .ok 0 := by
  cases exit with
  | error e => simp [verdict]
  | ok code => by_cases h : code = 0 <;> simp [verdict, h]

/-- Before a command is marked it is told of as finished.  Success is marked if the command ended
well, and failure otherwise. -/
theorem run_settle (t dir : String) (a : PlannedAction) (ending : Ending) :
    (settle t dir a ending).run = .tell (finished t a ending)
      (match verdict t a ending.exit with
      | .ok _ => .ask ⟨doneScript dir a.sum a.action.script, []⟩ fun reply =>
          .done (bookkept t "write success marker" reply)
      | .error e => .ask ⟨failedScript dir a.sum a.action.script, []⟩ fun _ =>
          .done (.error e)) := by
  have hfailed : markFailed t dir a.sum a.action.script =
      .ask ⟨failedScript dir a.sum a.action.script, []⟩ fun _ => .done () := by
    rw [markFailed, run_bookkeep]
    rfl
  cases h : ending.exit with
  | error e =>
    simp only [settle, finished, verdict, h, hfailed]
    rfl
  | ok code =>
    by_cases hc : code = 0
    · simp only [settle, finished, verdict, h, hc, if_true]
      show Script.tell _ (markDone t dir a.sum a.action.script).run = _
      rw [markDone, run_bookkeep]
    · simp only [settle, finished, verdict, h, hc, if_false, hfailed]
      rfl

theorem quiet_finished (t : String) (a : PlannedAction) (ending : Ending) :
    (Exchange.told (finished t a ending)).Quiet := by
  rw [finished]
  split <;> trivial

end Runner

/-! ### The course of each deed -/

/-- What the course of a deed comes to, whether it was cut off, failed or came to a good end. -/
structure DeedCourse (r : Runner) (part : Failing) (d : Deed) (fs : Files)
    (ms : List (Moment Files)) (s' : Script (Except RunError Unit)) (fs' : Files) : Prop where
  /-- It is halfway done, or better. -/
  halfway : ∃ did, fs'.markers = fs.markers.after did ∧
    Deed.Halfway r part (some d) did (acts (exchanges ms))
  /-- What is sent is the deed, or is for its failure. -/
  sent : effects ms = [] ∨ effects ms = d.ops r.settings.cacheRoot ∨
    effects ms = d.lapse r.settings.cacheRoot
  /-- A good end is one of the whole deed. -/
  ends : ∀ u, s' = .done (.ok u) →
    fs'.markers = fs.markers.after (d.ops r.settings.cacheRoot) ∧
      effects ms = d.ops r.settings.cacheRoot ∧
        ∃ as, d.Shows r as ∧ ∀ xs, acts (exchanges ms ++ xs) = as ++ acts xs

variable {r : Runner} {s' : Script (Except RunError Unit)}

theorem DeedCourse.makeDir {t : String}
    (h : (r.perform (.makeDir t)).run.Goes (Allowed r.settings.cacheRoot part) fs ms s' fs') :
    DeedCourse r part (.makeDir t) fs ms s' fs' := by
  have he := effect_makeDirScript (r.dirOf t)
  rcases goes_bookkeep h with ⟨rfl, rfl, hs⟩ | ⟨reply, rfl, hw, rfl⟩
  · exact ⟨⟨[], rfl, .idle _⟩, .inl rfl, fun u hu => absurd hu (hs u)⟩
  · obtain rfl := hw.of_effect_nil he
    have he : effects [⟨.asked ⟨Runner.makeDirScript (r.dirOf t), []⟩ reply, fs'⟩] = [] := by
      simp [Exchange.effect, he]
    exact ⟨⟨[], rfl, .idle _⟩, .inl he, fun u _ => ⟨rfl, he, [], rfl, fun xs => rfl⟩⟩

theorem DeedCourse.skip {t : String} {a : PlannedAction}
    (h : (r.perform (.skip t a)).run.Goes (Allowed r.settings.cacheRoot part) fs ms s' fs') :
    DeedCourse r part (.skip t a) fs ms s' fs' := by
  have hrun : (r.perform (.skip t a)).run =
      .tell (.commandCached t a.index a.sum a.action.label) (.done (.ok ())) := rfl
  rw [hrun] at h
  rcases Script.goes_tell h with ⟨rfl, rfl, rfl⟩ | ⟨fs₁, rest, rfl, hw, ht⟩
  · exact ⟨⟨[], rfl, .idle _⟩, .inl rfl, fun u hu => by cases hu⟩
  · obtain ⟨rfl, -, rfl⟩ := Script.goes_done ht
    have hm := hw.markers_of_told
    exact ⟨⟨[], hm, .begun rfl⟩, .inl rfl, fun u _ => ⟨hm, rfl, _, rfl, fun xs => rfl⟩⟩

theorem DeedCourse.sweep {t : String} {stale : List String}
    (h : (r.perform (.sweep t stale)).run.Goes (Allowed r.settings.cacheRoot part) fs ms s' fs') :
    DeedCourse r part (.sweep t stale) fs ms s' fs' := by
  cases stale with
  | nil =>
    -- nothing is stale, so nothing is sent
    obtain ⟨rfl, -, rfl⟩ := Script.goes_done (a := (.ok () : Except RunError Unit)) h
    exact ⟨⟨[], rfl, .idle _⟩, .inl rfl, fun u _ => ⟨rfl, rfl, [], rfl, fun xs => rfl⟩⟩
  | cons s ss =>
    have he : Shell.effect (Runner.deleteScript (r.dirOf t) (s :: ss)) =
        (Deed.sweep t (s :: ss)).ops r.settings.cacheRoot := effect_deleteScript _ _
    have hmark : ∀ op ∈ Shell.effect (Runner.deleteScript (r.dirOf t) (s :: ss)),
        Files.IsMarker op.path := fun op hop => Deed.isMarker_of_mem_ops _ (.inl (he ▸ hop))
    rw [Runner.run_sweep] at h
    rcases Script.goes_ask h with ⟨rfl, rfl, rfl⟩ | ⟨reply, fs₁, rest, rfl, hw, ht⟩
    · -- cut off before the deletion was sent
      exact ⟨⟨[], rfl, .idle _⟩, .inl rfl, fun u hu => by cases hu⟩
    obtain ⟨did, hfs, hdid, hfull⟩ := hw.exists_did hmark
    cases hb : bookkept t "delete stale markers" reply with
    | error e =>
      -- the deletion failed, perhaps halfway
      rw [hb] at ht
      obtain ⟨rfl, rfl, rfl⟩ := Script.goes_done ht
      refine ⟨⟨did, hfs, .partly rfl (he ▸ hdid)⟩, .inr (.inl ?_), fun u hu => by cases hu⟩
      simp [Exchange.effect, he]
    | ok u =>
      rw [hb] at ht
      rw [hfull (bookkept_eq_ok_iff.1 hb), he] at hfs
      rcases Script.goes_tell ht with ⟨rfl, rfl, rfl⟩ | ⟨fs₂, rest, rfl, hw', ht'⟩
      · -- all is deleted, but that was not told of
        refine ⟨⟨_, hfs, .partly rfl (part.everything _)⟩, .inr (.inl ?_), fun u hu => by cases hu⟩
        simp [Exchange.effect, he]
      · obtain ⟨rfl, -, rfl⟩ := Script.goes_done ht'
        rw [← hw'.markers_of_told] at hfs
        have heffects : effects [
            ⟨.asked ⟨Runner.deleteScript (r.dirOf t) (s :: ss), []⟩ reply, fs₁⟩,
            ⟨.told (.cacheInvalidated t (s :: ss)), fs'⟩] =
              (Deed.sweep t (s :: ss)).ops r.settings.cacheRoot := by
          simp [Exchange.effect, he]
        exact ⟨⟨_, hfs, .partly rfl (part.everything _)⟩, .inr (.inl heffects),
          fun u _ => ⟨hfs, heffects, [], rfl, fun xs => rfl⟩⟩

/-! ### Executing a command -/

theorem hushed_tellLines (t sum : String) (ls : List LogLine) :
    (Runner.tellLines t sum ls).Only Exchange.Hushed := by
  induction ls with
  | nil => trivial
  | cons l ls ih => exact ⟨trivial, ih⟩

/-- While the output of a command is told of and logged nothing is sent. -/
theorem hushed_account (t dir : String) (a : PlannedAction) (reply : Reply) :
    (Runner.account t dir a reply).Only Exchange.Hushed := by
  cases reply with
  | refused e => trivial
  | session s =>
    refine (hushed_tellLines _ _ _).bind fun _ => ?_
    intro result
    cases result with
    | error e => exact ⟨trivial, trivial, trivial⟩
    | ok _ => exact ⟨trivial, trivial⟩

theorem goes_account {t dir : String} {a : PlannedAction} {reply : Reply}
    {s' : Script Runner.Ending}
    (h : (Runner.account t dir a reply).Goes (Allowed root part) fs ms s' fs') :
    Uneventful fs ms fs' :=
  h.uneventful fun m hm => (h.forall_exchange (hushed_account t dir a reply) m hm).harmless

/-- How long a command took. -/
def Reply.millis : Reply → Nat
  | refused _ => 0
  | session s => s.millis

/-- What passes after the script of a command was sent and until the command is told of as
finished: its output is told of and put into its log, and a log that cannot be written is told of
as well. -/
inductive Reported (t dir sum : String) : Reply → List Exchange → Prop
  | refused (e : TransportError) : Reported t dir sum (.refused e) []
  | logged (s : Session) : Reported t dir sum (.session s)
      ((Runner.published (Runner.allReaderSteps s)).map
          (fun l => .told (.commandPrinted t sum l.origin l.text)) ++
        [.logged ⟨dir, sum, Runner.sent (Runner.allReaderSteps s)⟩ (.ok ())])
  | unlogged (s : Session) (e : LogError) : Reported t dir sum (.session s)
      ((Runner.published (Runner.allReaderSteps s)).map
          (fun l => .told (.commandPrinted t sum l.origin l.text)) ++
        [.logged ⟨dir, sum, Runner.sent (Runner.allReaderSteps s)⟩ (.error e),
          .told (.logFailed t sum e.message)])

@[simp] theorem yields_tellLines {t sum : String} {ls : List LogLine} {xs : List Exchange}
    {u : Unit} : (Runner.tellLines t sum ls).Yields xs u ↔
      xs = ls.map fun l => .told (.commandPrinted t sum l.origin l.text) := by
  induction ls generalizing xs with
  | nil =>
    show (Script.done ()).Yields xs u ↔ _
    simp
  | cons l ls ih =>
    show (Script.tell _ (Runner.tellLines t sum ls)).Yields xs u ↔ _
    simp [ih]

/-- A command ended as its reply says, after its output was told of and logged. -/
theorem yields_account {t dir : String} {a : PlannedAction} {reply : Reply}
    {ending : Runner.Ending} {xs : List Exchange} :
    (Runner.account t dir a reply).Yields xs ending ↔
      Reported t dir a.sum reply xs ∧ ending = ⟨reply.exit, reply.millis⟩ := by
  constructor
  · intro h
    cases reply with
    | refused e =>
      obtain ⟨rfl, rfl⟩ := Script.yields_done.1 h
      exact ⟨.refused e, rfl⟩
    | session s =>
      obtain ⟨u, ys, zs, rfl, h₁, h₂⟩ := Script.yields_bind.1 h
      obtain rfl := yields_tellLines.1 h₁
      obtain ⟨result, zs, rfl, h₃⟩ := Script.yields_log.1 h₂
      cases result with
      | ok _ =>
        obtain ⟨rfl, rfl⟩ := Script.yields_done.1 h₃
        exact ⟨.logged s, rfl⟩
      | error e =>
        obtain ⟨zs, rfl, h₄⟩ := Script.yields_tell.1 h₃
        obtain ⟨rfl, rfl⟩ := Script.yields_done.1 h₄
        exact ⟨.unlogged s e, rfl⟩
  · rintro ⟨h, rfl⟩
    cases h with
    | refused e => exact .done _
    | logged s =>
      refine Script.yields_bind.2 ⟨(), _, _, rfl, yields_tellLines.2 rfl, ?_⟩
      exact .next (.log _ _ (.ok ())) (.done _)
    | unlogged s e =>
      refine Script.yields_bind.2 ⟨(), _, _, rfl, yields_tellLines.2 rfl, ?_⟩
      exact .next (.log _ _ (.error e)) (.next (.tell _ _) (.done _))

/-- A script that is sent after something quiet was told, for the sake of markers. -/
theorem goes_tell_ask {what : Happening} {call : Call} {k : Reply → Except RunError Unit}
    (hq : (Exchange.told what).Quiet)
    (hm : ∀ op ∈ Shell.effect call.shell, Files.IsMarker op.path)
    (h : (Script.tell what (.ask call fun reply => .done (k reply))).Goes (Allowed root part)
      fs ms s' fs') :
    (∃ did, part.leaves (Shell.effect call.shell) did ∧ fs'.markers = fs.markers.after did) ∧
      (∀ x ∈ exchanges ms, x.Quiet) ∧ (effects ms = [] ∨ effects ms = Shell.effect call.shell) ∧
      ∀ u, s' = .done (.ok u) → effects ms = Shell.effect call.shell ∧ ∃ reply, k reply = .ok u ∧
        (reply.succeeded → fs'.markers = fs.markers.after (Shell.effect call.shell)) := by
  rcases Script.goes_tell h with ⟨rfl, rfl, rfl⟩ | ⟨fs₁, rest, rfl, hw, ht⟩
  · -- cut off before anything was told
    exact ⟨⟨[], part.nothing _, rfl⟩, by simp, .inl rfl, fun u hu => by cases hu⟩
  have hfs₁ := hw.markers_of_told
  rcases Script.goes_ask ht with ⟨rfl, rfl, rfl⟩ | ⟨reply, fs₂, rest, rfl, hw', ht'⟩
  · -- cut off before the script was sent
    exact ⟨⟨[], part.nothing _, hfs₁⟩, by simpa using hq, .inl rfl, fun u hu => by cases hu⟩
  obtain ⟨rfl, rfl, rfl⟩ := Script.goes_done ht'
  obtain ⟨did, hfs, hdid, hfull⟩ := hw'.exists_did hm
  rw [hfs₁] at hfs
  have heffects : effects [⟨.told what, fs₁⟩, ⟨.asked call reply, fs'⟩] =
      Shell.effect call.shell := by simp [Exchange.effect]
  refine ⟨⟨did, hdid, hfs⟩, ?_, .inr heffects,
    fun u hu => ⟨heffects, reply, Script.done.inj hu, fun hr => hfull hr ▸ hfs⟩⟩
  simpa using ⟨hq, trivial⟩

/-- What passes after the script of a command was sent and ended with `exit`. -/
structure Aftermath (r : Runner) (part : Failing) (t : String) (a : PlannedAction)
    (exit : Except TransportError Int) (fs : Files) (ms : List (Moment Files))
    (s' : Script (Except RunError Unit)) (fs' : Files) : Prop where
  /-- A marker of success is begun only if the command ended well. -/
  did : ∃ did, fs'.markers = fs.markers.after did ∧ (did = [] ∨
    exit = .ok 0 ∧ part.leaves ((Deed.execute t a).ops r.settings.cacheRoot) did ∨
    part.leaves ((Deed.execute t a).lapse r.settings.cacheRoot) did)
  /-- No other command is skipped or sent. -/
  quiet : ∀ x ∈ exchanges ms, x.Quiet
  /-- What is sent marks success or failure. -/
  sent : effects ms = [] ∨ effects ms = (Deed.execute t a).ops r.settings.cacheRoot ∨
    effects ms = (Deed.execute t a).lapse r.settings.cacheRoot
  /-- A good end is one of a command that ended well and is marked. -/
  ends : ∀ u, s' = .done (.ok u) → exit = .ok 0 ∧
    fs'.markers = fs.markers.after ((Deed.execute t a).ops r.settings.cacheRoot) ∧
      effects ms = (Deed.execute t a).ops r.settings.cacheRoot

theorem goes_settle {t : String} {a : PlannedAction} {ending : Runner.Ending}
    (h : (Runner.settle t (r.dirOf t) a ending).run.Goes (Allowed r.settings.cacheRoot part)
      fs ms s' fs') : Aftermath r part t a ending.exit fs ms s' fs' := by
  have hdone : Shell.effect (Runner.doneScript (r.dirOf t) a.sum a.action.script) =
      (Deed.execute t a).ops r.settings.cacheRoot := effect_doneScript _ _ _
  have hfailed : Shell.effect (Runner.failedScript (r.dirOf t) a.sum a.action.script) =
      (Deed.execute t a).lapse r.settings.cacheRoot := effect_failedScript _ _ _
  have hq := Runner.quiet_finished t a ending
  rw [Runner.run_settle] at h
  cases hv : Runner.verdict t a ending.exit with
  | ok u =>
    -- the command ended well, and its success is marked
    have hexit := Runner.verdict_eq_ok_iff.1 hv
    rw [hv] at h
    obtain ⟨⟨did, hdid, hfs⟩, hquiet, he, hend⟩ := goes_tell_ask hq
      (fun op hop => Deed.isMarker_of_mem_ops _ (.inl (hdone ▸ hop))) h
    rw [hdone] at he hdid hend
    refine ⟨⟨did, hfs, .inr (.inl ⟨hexit, hdid⟩)⟩, hquiet, he.imp_right .inl,
      fun u hu => ⟨hexit, ?_⟩⟩
    obtain ⟨hsent, reply, hreply, hfull⟩ := hend u hu
    exact ⟨hfull (bookkept_eq_ok_iff.1 hreply), hsent⟩
  | error e =>
    -- its failure is marked, and whatever comes of that the deed has failed
    rw [hv] at h
    obtain ⟨⟨did, hdid, hfs⟩, hquiet, he, hend⟩ := goes_tell_ask hq
      (fun op hop => Deed.isMarker_of_mem_ops _ (.inr (hfailed ▸ hop))) h
    rw [hfailed] at he hdid
    refine ⟨⟨did, hfs, .inr (.inr hdid)⟩, hquiet, he.imp_right .inr, fun u hu => ?_⟩
    obtain ⟨-, reply, hreply, -⟩ := hend u hu
    cases hreply

theorem goes_aftermath {t : String} {a : PlannedAction} {reply : Reply}
    (h : (Runner.account t (r.dirOf t) a reply >>= fun ending =>
      (Runner.settle t (r.dirOf t) a ending).run).Goes (Allowed r.settings.cacheRoot part)
      fs ms s' fs') : Aftermath r part t a reply.exit fs ms s' fs' := by
  rcases Script.goes_bind h with ⟨s₁, h₁, rfl, hne⟩ | ⟨ending, fs₁, ms₁, ms₂, rfl, h₁, h₂⟩
  · -- cut off while the output is told of
    obtain ⟨hfs, hq, he⟩ := goes_account h₁
    exact ⟨⟨[], hfs, .inl rfl⟩, hq, .inl he, fun u hu => absurd hu (hne _)⟩
  · obtain ⟨hfs, hq, he⟩ := goes_account h₁
    obtain ⟨hdid, hq', he', hend⟩ := goes_settle h₂
    rw [(yields_account.1 h₁.yields).2, hfs] at hdid hend
    have hsent : effects (ms₁ ++ ms₂) = effects ms₂ := by rw [effects_append, he, List.nil_append]
    rw [← hsent] at he'
    refine ⟨hdid, ?_, he', fun u hu => hsent ▸ hend u hu⟩
    rw [exchanges_append]
    exact List.forall_mem_append.2 ⟨hq, hq'⟩

theorem effect_wrap (r : Runner) (script : String) : Shell.effect (r.wrap script) = [] :=
  effect_strictShell _ _

theorem DeedCourse.execute {t : String} {a : PlannedAction}
    (h : (r.perform (.execute t a)).run.Goes (Allowed r.settings.cacheRoot part) fs ms s' fs') :
    DeedCourse r part (.execute t a) fs ms s' fs' := by
  rw [Runner.perform_execute, Runner.run_execute] at h
  rcases Script.goes_tell h with ⟨rfl, rfl, rfl⟩ | ⟨fs₁, rest, rfl, hw, ht⟩
  · -- cut off before the command was told of as started
    exact ⟨⟨[], rfl, .idle _⟩, .inl rfl, fun u hu => by cases hu⟩
  have hfs₁ := hw.markers_of_told
  rcases Script.goes_ask ht with ⟨rfl, rfl, rfl⟩ | ⟨reply, fs₂, rest, rfl, hw', ht'⟩
  · -- cut off before its script was sent, so that it does not show
    exact ⟨⟨[], hfs₁, .idle _⟩, .inl rfl, fun u hu => by cases hu⟩
  obtain rfl := hw'.of_effect_nil (effect_wrap _ _)
  obtain ⟨⟨did, hfs, hdid⟩, hq, he, hend⟩ := goes_aftermath ht'
  rw [hfs₁] at hfs hend
  have hacts : ∀ xs, acts (.told (.commandStarted t a.index a.sum a.action.label) ::
      .asked ⟨r.wrap a.action.script, []⟩ reply :: (exchanges rest ++ xs)) =
        .sent t a.index ⟨r.wrap a.action.script, []⟩ reply :: acts xs := by
    intro xs
    rw [acts, acts_append_quiet hq]
  have hact := hacts []
  rw [List.append_nil] at hact
  have hsent : effects (⟨.told (.commandStarted t a.index a.sum a.action.label), fs₂⟩ ::
      ⟨.asked ⟨r.wrap a.action.script, []⟩ reply, fs₂⟩ :: rest) = effects rest := by
    simp [Exchange.effect, effect_wrap]
  rw [← hsent] at he
  refine ⟨⟨did, hfs, ?_⟩, he, fun u hu => ?_⟩
  · rw [exchanges_cons, exchanges_cons, hact]
    rcases hdid with rfl | ⟨hexit, hdid⟩ | hdid
    · exact .begun ⟨reply, rfl⟩
    · exact .partly ⟨reply, hexit, rfl⟩ hdid
    · exact .lapsed ⟨reply, rfl⟩ hdid
  · obtain ⟨hexit, hfull, hops⟩ := hend u hu
    exact ⟨hfull, hsent.trans hops, _, ⟨reply, hexit, rfl⟩, hacts⟩

/-- The course of every deed. -/
theorem goes_perform {d : Deed}
    (h : (r.perform d).run.Goes (Allowed r.settings.cacheRoot part) fs ms s' fs') :
    DeedCourse r part d fs ms s' fs' := by
  cases d with
  | makeDir t => exact .makeDir h
  | skip t a => exact .skip h
  | sweep t stale => exact .sweep h
  | execute t a => exact .execute h

end Provisioning
