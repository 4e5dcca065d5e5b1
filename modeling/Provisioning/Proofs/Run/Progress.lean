import Provisioning.Proofs.Run.Phases

/-!
# How far a run is

At every moment of a run a first part of its deeds is done and the next one may be under way.

* `goes_performAll` : this holds while deeds are performed;
* `goes_provision` : and of a whole run, where before the cache is listed nothing is done.
-/

namespace Provisioning

variable {r : Runner} {part : Failing} {fs fs' : Files} {ms : List (Moment Files)}

/-- How deeds that came to a good end show, one after another. -/
def Shown (r : Runner) : List Deed → List Act → Prop
  | [], as => as = []
  | d :: ds, as => ∃ bs cs, as = bs ++ cs ∧ d.Shows r bs ∧ Shown r ds cs

/-- All that a run has done: the deeds `past` are done, and of the deeds `ahead` at most the first
is under way. -/
structure Underway (r : Runner) (part : Failing) (past ahead : List Deed) (fs : Files)
    (ms : List (Moment Files)) (fs' : Files) : Prop where
  /-- What has become of the markers, and what was done about commands. -/
  halfway : ∃ did as bs,
    fs'.markers = (fs.markers.after (past.flatMap (Deed.ops r.settings.cacheRoot))).after did ∧
      acts (exchanges ms) = as ++ bs ∧ Shown r past as ∧ Deed.Halfway r part ahead.head? did bs
  /-- What was sent for the sake of markers. -/
  sent : ∃ ops, effects ms = past.flatMap (Deed.ops r.settings.cacheRoot) ++ ops ∧
    (ops = [] ∨ ∃ d ∈ ahead.head?,
      ops = d.ops r.settings.cacheRoot ∨ ops = d.lapse r.settings.cacheRoot)

/-- A run that has done nothing. -/
theorem Underway.start {ahead : List Deed} (h : Uneventful fs ms fs') :
    Underway r part [] ahead fs ms fs' where
  halfway := ⟨[], [], [], h.markers, acts_quiet h.quiet, rfl, .idle _⟩
  sent := ⟨[], h.sent, .inl rfl⟩

/-- What passes before does not matter if nothing happens. -/
theorem Underway.after {past ahead : List Deed} {fs₁ : Files} {ms₁ : List (Moment Files)}
    (h₁ : Uneventful fs ms₁ fs₁) (h : Underway r part past ahead fs₁ ms fs') :
    Underway r part past ahead fs (ms₁ ++ ms) fs' where
  halfway := by
    rw [← h₁.markers, exchanges_append, acts_append_quiet h₁.quiet]
    exact h.halfway
  sent := by
    rw [effects_append, h₁.sent, List.nil_append]
    exact h.sent

/-- What is told in the end adds nothing. -/
theorem Underway.told {past ahead : List Deed} {fs₁ : Files} {what : Happening}
    (h : Underway r part past ahead fs ms fs₁) (hq : (Exchange.told what).Quiet)
    (hfs : fs'.markers = fs₁.markers) :
    Underway r part past ahead fs (ms ++ [⟨.told what, fs'⟩]) fs' where
  halfway := by
    rw [hfs, exchanges_append, exchanges_cons, exchanges_nil, acts_append_told hq]
    exact h.halfway
  sent := by
    have htold : effects [⟨.told what, fs'⟩] = [] := rfl
    rw [effects_append, htold, List.append_nil]
    exact h.sent

/-- The first deed is under way, or failed. -/
theorem DeedCourse.underway {d : Deed} {s' : Script (Except RunError Unit)}
    (h : DeedCourse r part d fs ms s' fs') (ahead : List Deed) :
    Underway r part [] (d :: ahead) fs ms fs' where
  halfway := by
    obtain ⟨did, hfs, hhalf⟩ := h.halfway
    exact ⟨did, [], _, hfs, rfl, rfl, hhalf⟩
  sent := ⟨_, rfl, h.sent.imp_right fun hs => ⟨d, rfl, hs⟩⟩

/-- The first deed is done, and the run goes on. -/
theorem DeedCourse.then {d : Deed} {fs₁ : Files} {ms₁ : List (Moment Files)} {u : Unit}
    (h₁ : DeedCourse r part d fs ms₁ (.done (.ok u)) fs₁) {past ahead : List Deed}
    (h : Underway r part past ahead fs₁ ms fs') :
    Underway r part (d :: past) ahead fs (ms₁ ++ ms) fs' where
  halfway := by
    obtain ⟨hfs, -, as₁, hshows, happend⟩ := h₁.ends u rfl
    obtain ⟨did, as, bs, hfs', hacts, hshown, hhalf⟩ := h.halfway
    refine ⟨did, as₁ ++ as, bs, ?_, ?_, ⟨as₁, as, rfl, hshows, hshown⟩, hhalf⟩
    · rw [List.flatMap_cons, Files.after_append, ← hfs, hfs']
    · rw [exchanges_append, happend, hacts, List.append_assoc]
  sent := by
    obtain ⟨-, hops, -⟩ := h₁.ends u rfl
    obtain ⟨ops, hsent, hrest⟩ := h.sent
    refine ⟨ops, ?_, hrest⟩
    rw [effects_append, hops, hsent, List.flatMap_cons, List.append_assoc]

/-- While deeds are performed a first part of them is done; all are done if it ends well. -/
theorem goes_performAll {ds : List Deed} {s' : Script (Except RunError Unit)}
    (h : (r.performAll ds).run.Goes (Allowed r.settings.cacheRoot part) fs ms s' fs') :
    ∃ past ahead, ds = past ++ ahead ∧ Underway r part past ahead fs ms fs' ∧
      ∀ u, s' = .done (.ok u) → ahead = [] := by
  induction ds generalizing fs ms with
  | nil =>
    obtain ⟨rfl, -, rfl⟩ := Script.goes_done (a := (.ok () : Except RunError Unit)) h
    exact ⟨[], [], rfl, .start (.nil _), fun _ _ => rfl⟩
  | cons d ds ih =>
    rw [Runner.performAll, ExceptT.run_bind] at h
    rcases Script.goes_bind h with ⟨s₁, h₁, rfl, hne⟩ | ⟨res, fs₁, ms₁, ms₂, rfl, h₁, h₂⟩
    · -- cut off during the first deed
      exact ⟨[], d :: ds, rfl, (goes_perform h₁).underway ds, fun u hu => absurd hu (hne _)⟩
    · cases res with
      | error e =>
        -- the first deed failed, and no other is begun
        obtain ⟨rfl, rfl, rfl⟩ := Script.goes_done (a := (.error e : Except RunError Unit)) h₂
        rw [List.append_nil]
        exact ⟨[], d :: ds, rfl, (goes_perform h₁).underway ds, fun u hu => by cases hu⟩
      | ok u =>
        obtain ⟨past, ahead, rfl, hrest, hend⟩ := ih h₂
        exact ⟨d :: past, ahead, rfl, (goes_perform h₁).then hrest, hend⟩

/-! ### What the cache is known to hold -/

/-- An inventory tells what a listing of the files shows. -/
def Known (root : String) (fs : Files) (inv : Inventory) : Prop :=
  ∃ listing, fs.Lists listing ∧ Inventory.ofListing root listing = .ok inv

theorem known_of_inventoried {root : String} {reply : Reply} {inv : Inventory}
    (hw : Allowed root part fs (.asked ⟨Cache.listingScript root, []⟩ reply) fs')
    (h : inventoried root reply = .ok inv) : Known root fs inv := by
  obtain ⟨out, ho, hs, hinv⟩ := inventoried_eq_ok_iff.1 h
  refine ⟨out.stdout, ?_, hinv⟩
  cases hw with
  | succeeded _ hl => exact hl out ho rfl
  | failed hf _ => simp [Reply.succeeded, ho, hs] at hf

theorem Known.of_markers_eq {root : String} {inv : Inventory} (h : Known root fs inv)
    (hm : fs.markers = fs'.markers) : Known root fs' inv := by
  obtain ⟨listing, hl, hinv⟩ := h
  exact ⟨listing, hl.of_markers_eq hm, hinv⟩

/-- All that is known of the same files is the same. -/
theorem Known.mem_iff {root : String} {inv inv' : Inventory} (h : Known root fs inv)
    (h' : Known root fs inv') (m : Marker) : m ∈ inv' ↔ m ∈ inv := by
  obtain ⟨listing, hl, hinv⟩ := h
  obtain ⟨listing', hl', hinv'⟩ := h'
  obtain ⟨inv₁, hinv₁, hmem⟩ := Inventory.exists_ofListing_of_lists hl hl' hinv
  rw [hinv'] at hinv₁
  obtain rfl := Except.ok.inj hinv₁
  exact hmem m

theorem Known.ofTask_eq {root : String} {inv inv' : Inventory} (h : Known root fs inv)
    (h' : Known root fs inv') (task : Task) :
    Plan.ofTask task (inv.sums task.name) = Plan.ofTask task (inv'.sums task.name) := by
  refine Plan.ofTask_congr task fun s => ?_
  rw [Inventory.mem_sums, Inventory.mem_sums, h.mem_iff h']

/-! ### Whole runs -/

/-- What the course of a run for some tasks comes to; `ends c` says that it comes to a good end
with the counts `c`. -/
inductive RunCourse (r : Runner) (part : Failing) (tasks : List Task) (fs : Files)
    (ms : List (Moment Files)) (fs' : Files) (ends : Counts → Prop) : Prop
  /-- It has come to no deed. -/
  | idle (h : Uneventful fs ms fs') (hend : ∀ c, ¬ ends c)
  /-- It performs the deeds that follow from what the host has listed. -/
  | working {inv : Inventory} {past ahead : List Deed}
      (known : Known r.settings.cacheRoot fs inv)
      (deeds : Task.itinerary tasks inv = past ++ ahead)
      (underway : Underway r part past ahead fs ms fs')
      (hend : ∀ c, ends c → ahead = [] ∧ c = Task.tally tasks inv .zero)

theorem RunCourse.told {tasks : List Task} {ends : Counts → Prop} {fs₁ : Files} {what : Happening}
    (h : RunCourse r part tasks fs ms fs₁ ends) (hq : (Exchange.told what).Quiet)
    (hfs : fs'.markers = fs₁.markers) :
    RunCourse r part tasks fs (ms ++ [⟨.told what, fs'⟩]) fs' ends := by
  cases h with
  | idle h hend => exact .idle (h.append (.cons hfs hq rfl (.nil _))) hend
  | working known deeds underway hend => exact .working known deeds (underway.told hq hfs) hend

theorem Phases.runCourse {tasks : List Task} {ends : Counts → Prop} {α : Type} {s s' : Script α}
    (h : Phases (Allowed r.settings.cacheRoot part) r tasks ms fs' ends)
    (hgoes : s.Goes (Allowed r.settings.cacheRoot part) fs ms s' fs') :
    RunCourse r part tasks fs ms fs' ends := by
  cases h with
  | opening h hend => exact .idle (hgoes.uneventful fun m hm => (h m hm).harmless) hend
  | @working before deeds reply inv t fs₂ moments opens listing goes hend =>
    subst moments
    -- nothing happens before the cache is listed, nor by that
    obtain ⟨s₁, fs₁, h₁, h₂⟩ := hgoes.append_inv
    have hbefore := h₁.uneventful fun m hm => (opens m hm).harmless
    cases h₂ with
    | next hs hw ht =>
      have he := effect_listingScript r.settings.cacheRoot
      have hlist : Uneventful fs₁
          [⟨.asked ⟨Cache.listingScript r.settings.cacheRoot, []⟩ reply, fs₂⟩] fs₂ :=
        .cons (hw.markers_of_effect_nil he) trivial he (.nil _)
      obtain ⟨past, ahead, heq, hu, hend'⟩ := goes_performAll goes
      refine .working ((known_of_inventoried hw listing).of_markers_eq hbefore.markers) heq
        (.after hbefore (.after hlist hu)) fun c hc => ?_
      obtain ⟨rfl, hcounts⟩ := hend c hc
      exact ⟨hend' _ rfl, hcounts⟩

/-- The course of a run. -/
theorem goes_provision {tasks : List Task} {s' : Script (Except RunError Counts)}
    (h : (r.provision tasks).Goes (Allowed r.settings.cacheRoot part) fs ms s' fs') :
    RunCourse r part tasks fs ms fs' fun c => s' = .done (.ok c) := by
  obtain ⟨ms₁, closing, s₁, fs₁, rfl, hgoes, hclosing, hphases⟩ := Runner.goes_phases h
  have hcourse := hphases.runCourse hgoes
  cases hclosing with
  | cut => rwa [List.append_nil]
  | told hq hw => exact hcourse.told hq hw.markers_of_told

end Provisioning
