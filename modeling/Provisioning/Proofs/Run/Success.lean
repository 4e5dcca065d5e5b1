import Provisioning.Proofs.Run.Progress

/-!
# Runs that cannot fail

A run fails only if something that it asks for fails, or if its cache holds what is no marker.
`Script.Sure` says what a script comes to if all that it asks for succeeds.

* `Script.sure_of_goes` : where every exchange is fine, a script comes to that;
* `Runner.sure_runTasks` : tasks come to a good end, and count for what their plans say;
* `goes_provision_fine` : so does a whole run where the listing of the cache is accepted, as it is
  where the cache holds nothing but markers;
* `goes_plan` : and a dry run, which does nothing but list the cache.
-/

namespace Provisioning

namespace Script

variable {α β : Type}

/-- Whether a script comes to a result as wanted if all that it asks for succeeds. -/
def Sure (wanted : α → Prop) : Script α → Prop
  | done a => wanted a
  | ask _ next => ∀ reply : Reply, reply.succeeded → (next reply).Sure wanted
  | reset next => (next (.ok ())).Sure wanted
  | tell _ next => next.Sure wanted
  | log _ next => ∀ result, (next result).Sure wanted

theorem Sure.mono {wanted wanted' : α → Prop} {s : Script α} (h : s.Sure wanted)
    (himp : ∀ a, wanted a → wanted' a) : s.Sure wanted' := by
  induction s with
  | done a => exact himp a h
  | ask call next ih =>
    intro reply hr
    exact ih reply (h reply hr)
  | reset next ih => exact ih _ h
  | tell what next ih => exact ih h
  | log job next ih =>
    intro result
    exact ih result (h result)

theorem Sure.bind {wanted : α → Prop} {wanted' : β → Prop} {s : Script α} {f : α → Script β}
    (h : s.Sure wanted) (hf : ∀ a, wanted a → (f a).Sure wanted') : (s >>= f).Sure wanted' := by
  induction s with
  | done a => exact hf a h
  | ask call next ih =>
    intro reply hr
    exact ih reply (h reply hr)
  | reset next ih => exact ih _ h
  | tell what next ih => exact ih h
  | log job next ih =>
    intro result
    exact ih result (h result)

theorem sure_map {wanted : β → Prop} {s : Script α} {f : α → β} (h : (f <$> s).Sure wanted) :
    s.Sure fun a => wanted (f a) := by
  induction s with
  | done a => exact h
  | ask call next ih =>
    intro reply hr
    exact ih reply (h reply hr)
  | reset next ih => exact ih _ h
  | tell what next ih => exact ih h
  | log job next ih =>
    intro result
    exact ih result (h result)

/-- Where every exchange is fine, a script comes to a result as wanted. -/
theorem sure_of_goes {σ : Type} {W : σ → Exchange → σ → Prop} {wanted : α → Prop} {s : Script α}
    {w w' : σ} {ms : List (Moment σ)} {a : α} (hs : s.Sure wanted)
    (h : s.Goes W w ms (.done a) w') (hfine : ∀ m ∈ ms, m.exchange.Fine) : wanted a := by
  induction s generalizing w ms with
  | done b =>
    obtain ⟨-, he, -⟩ := goes_done h
    obtain rfl := done.inj he
    exact hs
  | ask call next ih =>
    rcases goes_ask h with ⟨-, he, -⟩ | ⟨reply, w₁, rest, rfl, -, ht⟩
    · cases he
    · rw [List.forall_mem_cons] at hfine
      exact ih reply (hs reply hfine.1) ht hfine.2
  | reset next ih =>
    rcases goes_reset h with ⟨-, he, -⟩ | ⟨result, w₁, rest, rfl, -, ht⟩
    · cases he
    · rw [List.forall_mem_cons] at hfine
      obtain rfl : result = .ok () := hfine.1
      exact ih _ hs ht hfine.2
  | tell what next ih =>
    rcases goes_tell h with ⟨-, he, -⟩ | ⟨w₁, rest, rfl, -, ht⟩
    · cases he
    · exact ih hs ht (List.forall_mem_cons.1 hfine).2
  | log job next ih =>
    rcases goes_log h with ⟨-, he, -⟩ | ⟨result, w₁, rest, rfl, -, ht⟩
    · cases he
    · exact ih result (hs result) ht (List.forall_mem_cons.1 hfine).2

end Script

/-! ### Replies -/

namespace Reply

theorem exists_output_of_succeeded {reply : Reply} (h : reply.succeeded) :
    ∃ out, reply.output = .ok out ∧ out.succeeded := by
  rw [succeeded] at h
  cases ho : reply.output with
  | error e => simp [ho] at h
  | ok out => exact ⟨out, rfl, by simpa [ho] using h⟩

/-- A reply that tells of success is that of a session with exit code zero. -/
theorem exists_session_of_succeeded {reply : Reply} (h : reply.succeeded) :
    ∃ s, reply = .session s ∧ s.exit = .ok 0 := by
  obtain ⟨out, ho, hs⟩ := exists_output_of_succeeded h
  cases reply with
  | refused e => cases ho
  | session s =>
    refine ⟨s, rfl, ?_⟩
    rw [output, Session.output] at ho
    cases he : s.exit with
    | error e => simp [he, Except.map] at ho
    | ok code =>
      simp only [he, Except.map, Except.ok.injEq] at ho
      subst ho
      simpa [Output.succeeded] using hs

end Reply

/-! ### Deeds -/

namespace Runner

theorem sure_bookkeep (task action script : String) :
    (bookkeep task action script).run.Sure (· = .ok ()) := by
  rw [run_bookkeep]
  intro reply hr
  exact bookkept_eq_ok_iff.2 hr

variable (r : Runner)

theorem sure_tellLines (t sum : String) (ls : List LogLine) :
    (tellLines t sum ls).Sure fun _ => True := by
  induction ls with
  | nil => trivial
  | cons l ls ih => exact ih

theorem sure_account (t dir : String) (a : PlannedAction) {reply : Reply} (h : reply.succeeded) :
    (account t dir a reply).Sure fun ending => ending.exit = .ok 0 := by
  obtain ⟨s, rfl, hs⟩ := Reply.exists_session_of_succeeded h
  refine (sure_tellLines _ _ _).bind fun _ _ => ?_
  intro result
  cases result <;> exact hs

theorem sure_settle (t dir : String) (a : PlannedAction) {ending : Ending}
    (h : ending.exit = .ok 0) : (settle t dir a ending).run.Sure (· = .ok ()) := by
  simp only [settle, h, if_true]
  show (markDone t dir a.sum a.action.script).run.Sure _
  exact sure_bookkeep _ _ _

/-- A deed comes to a good end if all that it asks for succeeds. -/
theorem sure_perform (d : Deed) : (r.perform d).run.Sure (· = .ok ()) := by
  cases d with
  | makeDir t => exact sure_bookkeep _ _ _
  | skip t a => exact rfl
  | sweep t stale =>
    cases stale with
    | nil => exact rfl
    | cons s ss =>
      rw [run_sweep]
      intro reply hr
      simp only [bookkept_eq_ok_iff.2 hr]
      exact rfl
  | execute t a =>
    rw [perform_execute, run_execute]
    intro reply hr
    exact (sure_account _ _ _ hr).bind fun ending he => sure_settle _ _ _ he

theorem sure_performAll (ds : List Deed) : (r.performAll ds).run.Sure (· = .ok ()) := by
  induction ds with
  | nil => exact rfl
  | cons d ds ih =>
    rw [performAll, ExceptT.run_bind]
    refine (r.sure_perform d).bind fun res hres => ?_
    subst hres
    exact ih

/-- Tasks come to a good end if all that they ask for succeeds. -/
theorem sure_runTasks (tasks : List Task) (inv : Inventory) (counts : Counts) :
    (r.runTasks tasks inv counts).Sure (· = (.ok (), Task.tally tasks inv counts)) := by
  have hsure : (outcome <$> r.runTasks tasks inv counts).Sure
      (· = .ok (Task.tally tasks inv counts)) := by
    rw [outcome_runTasks, ExceptT.run_bind]
    refine (r.sure_performAll _).bind fun res hres => ?_
    subst hres
    exact rfl
  refine (Script.sure_map hsure).mono ?_
  rintro ⟨result, c⟩ h
  cases result with
  | error e => cases h
  | ok u => exact congrArg _ (Except.ok.inj h)

/-! ### Before the first deed -/

theorem sure_capture {α : Type} {wanted : α → Prop} {shell : String}
    {k : Except TransportError Output → Talk α}
    (hk : ∀ out : Output, out.succeeded → (Script.ofTalk (k (.ok out))).Sure wanted) :
    (Script.ofTalk (capture shell >>= k)).Sure wanted := by
  intro reply hr
  obtain ⟨out, hout, hs⟩ := Reply.exists_output_of_succeeded hr
  show (Script.ofTalk (k reply.output)).Sure wanted
  rw [hout]
  exact hk out hs

theorem sure_prepare (settings : Settings) (user : String) :
    (Script.ofTalk (prepare settings user)).Sure fun result => ∃ b, result = .ok b := by
  refine sure_capture fun ids hids => ?_
  show (Script.ofTalk (if _ then _ else if _ then _ else _)).Sure _
  rw [hids, if_neg (by simp)]
  split
  · exact ⟨false, rfl⟩
  · refine sure_capture fun out hout => ?_
    show (Script.ofTalk (if _ then _ else _)).Sure _
    rw [hout, if_neg (by simp)]
    exact ⟨true, rfl⟩

theorem sure_prepareIfManaged : r.prepareIfManaged.Sure (· = .ok ()) := by
  rw [prepareIfManaged]
  split
  · refine (sure_prepare r.settings r.user).bind ?_
    rintro _ ⟨b, rfl⟩
    exact rfl
  · exact rfl

end Runner

/-- Whether the cache holds nothing but markers, where the listing can show them. -/
structure Files.Readable (root : String) (fs : Files) : Prop where
  /-- The listing can show what is there. -/
  below : fs.Below root
  /-- What it shows are markers. -/
  marker : ∀ p ∈ fs, IsListed p → ∃ m, Inventory.markerOfPath root p.toList = .ok m

variable {root : String} {part : Failing} {fs fs' : Files} {ms : List (Moment Files)}

/-- Whether every listing of the cache is accepted. -/
def Files.Listable (root : String) (fs : Files) : Prop :=
  ∀ listing, fs.Lists listing → ∃ inv, Inventory.ofListing root listing = .ok inv

theorem Files.Readable.listable (hr : fs.Readable root) (hroot : Cache.Legible root) :
    fs.Listable root :=
  fun _ hl => Inventory.exists_ofListing hroot hr.below hl hr.marker

/-- Markers that are reported at their paths make listings that are accepted. -/
theorem Files.Legible.listable (h : fs.Legible) (hr : fs.Readable root) : fs.Listable root := by
  intro listing hl
  by_cases hsome : ∃ p ∈ fs, IsListed p
  · obtain ⟨p, hp, hd⟩ := hsome
    obtain ⟨rest, heq, -⟩ := hr.below p hp hd
    have hmem := h listing hl p hp hd
    rw [heq] at hmem
    exact hr.listable (Inventory.legible_of_mem_listedPaths hmem) listing hl
  · -- there is nothing to list
    obtain ⟨paths, hpaths, rfl⟩ := hl
    obtain rfl : paths = [] :=
      List.eq_nil_iff_forall_not_mem.2 fun p hp => hsome ⟨p, (hpaths p).1 hp⟩
    exact ⟨∅, rfl⟩

/-- Where one listing was accepted every other is. -/
theorem Known.listable {inv : Inventory} (h : Known root fs inv) : fs.Listable root := by
  obtain ⟨listing, hl, hinv⟩ := h
  intro listing' hl'
  obtain ⟨inv', hinv', -⟩ := Inventory.exists_ofListing_of_lists hl hl' hinv
  exact ⟨inv', hinv'⟩

theorem Files.Listable.of_markers_eq (h : fs.Listable root) (hm : fs'.markers = fs.markers) :
    fs'.Listable root :=
  fun listing hl => h listing (hl.of_markers_eq hm)

/-- The cache is known if its listing succeeds. -/
theorem exists_inventoried {reply : Reply}
    (hw : Allowed root part fs (.asked ⟨Cache.listingScript root, []⟩ reply) fs')
    (hfine : reply.succeeded) (hl : fs.Listable root) :
    ∃ inv, inventoried root reply = .ok inv := by
  obtain ⟨out, hout, hs⟩ := Reply.exists_output_of_succeeded hfine
  -- the reply is fine, so it tells the truth
  have hlists : fs.Lists out.stdout := by
    cases hw with
    | succeeded _ htrue => exact htrue out hout rfl
    | failed hf _ => simp [hfine] at hf
  obtain ⟨inv, hinv⟩ := hl _ hlists
  exact ⟨inv, inventoried_eq_ok_iff.2 ⟨out, hout, hs, hinv⟩⟩

/-- The same where it is listed in the course of a run. -/
theorem goes_takeInventory_fine {result : Except InventoryError Inventory}
    (h : (Script.ofTalk (takeInventory root)).Goes (Allowed root part) fs ms (.done result) fs')
    (hfine : ∀ m ∈ ms, m.exchange.Fine) (hl : fs.Listable root) :
    ∃ inv, result = .ok inv := by
  rw [ofTalk_takeInventory] at h
  rcases Script.goes_ask h with ⟨-, he, -⟩ | ⟨reply, fs₁, rest, rfl, hw, ht⟩
  · cases he
  obtain ⟨rfl, he, rfl⟩ := Script.goes_done ht
  obtain rfl := Script.done.inj he
  exact exists_inventoried hw (hfine _ List.mem_cons_self) hl

variable {r : Runner} {tasks : List Task}

theorem goes_runHost_fine {result : Except RunError Unit × Counts}
    (h : (r.runHost tasks).Goes (Allowed r.settings.cacheRoot part) fs ms (.done result) fs')
    (hfine : ∀ m ∈ ms, m.exchange.Fine) (hl : fs.Listable r.settings.cacheRoot) :
    result.1 = .ok () := by
  rw [Runner.runHost] at h
  obtain ⟨prepared, fs₁, ms₁, ms₂, rfl, h₁, h₂⟩ := Script.goes_bind_done h
  rw [List.forall_mem_append] at hfine
  have hprepared := Script.sure_of_goes r.sure_prepareIfManaged h₁ hfine.1
  subst hprepared
  have hl₁ := hl.of_markers_eq (h₁.uneventful fun m hm =>
    (h₁.forall_exchange opens_prepareIfManaged m hm).harmless).markers
  obtain ⟨listed, fs₂, ms₃, ms₄, rfl, h₃, h₄⟩ := Script.goes_bind_done h₂
  rw [List.forall_mem_append] at hfine
  obtain ⟨inv, rfl⟩ := goes_takeInventory_fine h₃ hfine.2.1 hl₁
  rw [Script.sure_of_goes (r.sure_runTasks tasks inv .zero) h₄ hfine.2.2]

/-- A whole run comes to a good end if all that it asks for succeeds. -/
theorem goes_provision_fine {result : Except RunError Counts}
    (h : (r.provision tasks).Goes (Allowed r.settings.cacheRoot part) fs ms (.done result) fs')
    (hfine : ∀ m ∈ ms, m.exchange.Fine) (hl : fs.Listable r.settings.cacheRoot) :
    ∃ c, result = .ok c := by
  rcases Script.goes_tell h with ⟨-, he, -⟩ | ⟨fs₁, rest, rfl, hw, ht⟩
  · cases he
  have hl₁ := hl.of_markers_eq hw.markers_of_told
  rw [List.forall_mem_cons] at hfine
  obtain ⟨⟨ended, counts⟩, fs₂, ms₁, ms₂, rfl, h₁, h₂⟩ :=
    Script.goes_bind_done (s := r.runHost tasks) ht
  rw [List.forall_mem_append] at hfine
  obtain rfl : ended = .ok () := goes_runHost_fine h₁ hfine.2.1 hl₁
  rcases Script.goes_tell h₂ with ⟨-, he, -⟩ | ⟨fs₃, rest, rfl, -, ht⟩
  · cases he
  · obtain ⟨-, he, -⟩ := Script.goes_done (a := (.ok counts : Except RunError Counts)) ht
    exact ⟨counts, Script.done.inj he⟩

/-! ### Dry runs -/

theorem uneventful_plan {s' : Script (Except RunError (List Plan))}
    (h : (r.plan tasks).Goes (Allowed r.settings.cacheRoot part) fs ms s' fs') :
    Uneventful fs ms fs' :=
  h.uneventful fun m hm => (h.forall_exchange Runner.opens_plan m hm).harmless

/-- A dry run says what follows from what the host has listed, and comes to that if all that it
asks for succeeds. -/
theorem goes_plan {result : Except RunError (List Plan)}
    (h : (r.plan tasks).Goes (Allowed r.settings.cacheRoot part) fs ms (.done result) fs')
    (hfine : ∀ m ∈ ms, m.exchange.Fine) (hl : fs.Listable r.settings.cacheRoot) :
    ∃ inv, Known r.settings.cacheRoot fs inv ∧
      result = .ok (tasks.map fun task => Plan.ofTask task (inv.sums task.name)) := by
  obtain ⟨reply, fs₁, rfl, hw, hw', rfl⟩ := Runner.goes_plan_done h
  have hm := hw.markers_of_told
  have hreply : reply.succeeded := hfine _ (List.mem_cons_of_mem _ List.mem_cons_self)
  obtain ⟨inv, hinv⟩ := exists_inventoried hw' hreply (hl.of_markers_eq hm)
  refine ⟨inv, (known_of_inventoried hw' hinv).of_markers_eq hm, ?_⟩
  rw [Runner.forecast, hinv]

end Provisioning
