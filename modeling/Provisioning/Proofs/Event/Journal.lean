import Provisioning.Proofs.Event.Json
import Provisioning.Proofs.Rehearsal.Files
import Provisioning.Proofs.Text.Lines
import Provisioning.Proofs.Text.Search
import Provisioning.Proofs.Text.Utf8
import Provisioning.Rehearsal.Journal

/-!
# Journals

Each line of a journal is the text of an event, so events are read back from the journal of their
host in the order in which they were added, whatever goes to other journals meanwhile and whatever
cannot be added.

* `Journal.lines_contents` : the lines of a journal are its events;
* `Journal.place_ne` : hosts with directories of their own have journals of their own;
* `Journal.journal_refused`, `Journal.journal_added` : what adding one event may come to;
* `Journal.journalAll_none_or_all` : a journal takes all events of a host, or none, since a file tree
  refuses nothing that is written to a file that is ready;
* `Journal.Written`, `Journal.journalAll_spec` : what adding many events comes to;
* `Journal.lossless` : nothing is lost.
-/

namespace Provisioning

open Rehearsal (Place)
open Rehearsal.Files (goal goal_join goal_of_slashless sink turn held_of_file)

namespace Journal

/-! ### Lines -/

/-- What a journal of some events holds. -/
def contents (events : List Event) : List UInt8 :=
  textBytes (String.join (events.map line))

theorem contents_nil : contents [] = [] := rfl

theorem contents_append (events more : List Event) :
    contents (events ++ more) = contents events ++ contents more := by
  rw [contents, List.map_append, String.join_append, textBytes_append, contents, contents]

theorem contents_singleton (e : Event) : contents [e] = textBytes (line e) := by
  simp [contents]

/-- The lines of a journal are its events. -/
theorem lines_contents {events : List Event} (h : ∀ e ∈ events, e.InRange) :
    (Text.lines (Utf8.decode (contents events))).map Event.ofText? = events.map some := by
  have hvisible : ∀ t ∈ events.map Event.render, Json.Visible t.toList := by
    intro t ht
    obtain ⟨e, he, rfl⟩ := List.mem_map.1 ht
    exact Event.visible_render (h e he)
  have hlines : Text.lines (String.join (events.map line)) = events.map Event.render := by
    have hjoin := @Text.lines_join (events.map Event.render)
      (fun t ht hm => absurd (hvisible t ht _ hm) (by decide))
      (fun t ht hl => absurd (hvisible t ht _ (List.mem_of_getLast? hl)) (by decide))
    rwa [List.map_map] at hjoin
  rw [contents, Utf8.decode_textBytes, hlines, List.map_map]
  exact List.map_congr_left fun e he => Event.ofText?_render (h e he)

/-! ### Places -/

/-- The place of the journal of a host. -/
def place (cwd : Place) (stateDir host : String) : Place :=
  goal cwd (path stateDir host)

theorem place_eq (cwd : Place) (stateDir host : String) :
    place cwd stateDir host = goal (goal cwd stateDir) host ++ ["events.jsonl"] := by
  rw [place, path, goal_join, goal_join, goal_of_slashless (by decide) (by decide)]
  simp [turn]

/-- No journal lies where everything gets lost. -/
theorem place_ne_sink (cwd : Place) (stateDir host : String) :
    place cwd stateDir host ≠ sink := by
  intro h
  rw [place_eq] at h
  have hlast := congrArg List.getLast? h
  simp [sink] at hlast

/-- Whether a host has a directory of its own. -/
def IsPlain (host : String) : Prop :=
  '/' ∉ host.toList ∧ host ≠ "" ∧ host ≠ "." ∧ host ≠ ".."
deriving Decidable

/-- Hosts with directories of their own have journals of their own. -/
theorem place_ne {cwd : Place} {stateDir host host' : String} (h : IsPlain host)
    (h' : IsPlain host') (hne : host ≠ host') :
    place cwd stateDir host ≠ place cwd stateDir host' := by
  obtain ⟨hs, he, hdot, hdots⟩ := h
  obtain ⟨hs', he', hdot', hdots'⟩ := h'
  rw [place_eq, place_eq, goal_of_slashless he hs, goal_of_slashless he' hs']
  simp [turn, hdot, hdots, hdot', hdots', hne]

/-- The name of the journal that an event goes to. -/
def nameOf (e : Event) : String := e.host?.getD fleetName

/-! ### Events added one by one -/

variable {fs fs' : Rehearsal.Files} {cwd : Place} {stateDir host : String} {e : Event}

theorem makeParent_spec {p : String} {made : Bool} (h : fs.makeParent cwd p = (fs', made)) :
    fs.Within fs' ∧ ∀ q, fs'.held q = fs.held q := by
  rw [Rehearsal.Files.makeParent] at h
  generalize (Path.parent? p).getD "" = dir at h
  split at h
  · obtain ⟨rfl, -⟩ := Prod.mk.inj h
    exact ⟨.refl _, fun _ => rfl⟩
  · split at h
    all_goals
      next hmake =>
        obtain ⟨rfl, -⟩ := Prod.mk.inj h
        exact Rehearsal.Files.makePath_spec hmake

theorem makeParent_again {p : String} {made : Bool} {fs'' : Rehearsal.Files}
    (h : fs'.Within fs'') (hmake : fs.makeParent cwd p = (fs', made)) :
    fs''.makeParent cwd p = (fs'', made) := by
  rw [Rehearsal.Files.makeParent] at hmake ⊢
  generalize (Path.parent? p).getD "" = dir at hmake ⊢
  by_cases hempty : dir.isEmpty
  · rw [if_pos hempty] at hmake ⊢
    rw [(Prod.mk.inj hmake).2]
  · rw [if_neg hempty] at hmake ⊢
    rcases hpath : fs.makePath cwd dir with ⟨fs₁, r⟩
    rw [hpath] at hmake
    obtain ⟨rfl, hmade⟩ : fs₁ = fs' ∧ r.toBool = made := by
      cases r <;> exact Prod.mk.inj hmake
    rw [h.makePath hpath, ← hmade]
    cases r <;> rfl

/-- An event that cannot be added changes no file, and no other can be added to the journal. -/
theorem journal_refused (h : fs.journal cwd stateDir e = (fs', false)) :
    fs.Within fs' ∧ (∀ q, fs'.held q = fs.held q) ∧
      ∀ e', nameOf e' = nameOf e → fs'.journal cwd stateDir e' = (fs', false) := by
  rw [Rehearsal.Files.journal, pathOf, ← nameOf] at h
  rcases hmake : fs.makeParent cwd (path stateDir (nameOf e)) with ⟨fs₁, made⟩
  obtain ⟨hwithin, hheld⟩ := makeParent_spec hmake
  have hagain := makeParent_again (.refl _) hmake
  simp only [hmake] at h
  split at h
  · next hmade =>
    split at h
    · next err hready =>
      obtain rfl := (Prod.mk.inj h).1
      refine ⟨hwithin, hheld, fun e' he' => ?_⟩
      rw [Rehearsal.Files.journal, pathOf, ← nameOf, he', hagain]
      simp only [hmade, if_true, hready]
    · simp at h
  · next hmade =>
    obtain rfl := (Prod.mk.inj h).1
    refine ⟨hwithin, hheld, fun e' he' => ?_⟩
    rw [Rehearsal.Files.journal, pathOf, ← nameOf, he', hagain]
    simp only [hmade, if_false, Bool.false_eq_true]

/-- Whether a journal is there, so that events can be added to it. -/
structure IsOpen (cwd : Place) (stateDir host : String) (fs : Rehearsal.Files) : Prop where
  parent : fs.makeParent cwd (path stateDir host) = (fs, true)
  leads : fs.resolve cwd (path stateDir host) = .ok (place cwd stateDir host)
  file : ∃ bytes, fs.get? (place cwd stateDir host) = some (.file bytes)

/-- It stays there. -/
theorem IsOpen.mono (h : IsOpen cwd stateDir host fs) (hw : fs.Within fs') :
    IsOpen cwd stateDir host fs' where
  parent := makeParent_again hw h.parent
  leads := hw.resolve h.leads
  file := by
    obtain ⟨bytes, hfile⟩ := h.file
    exact hw.file hfile

/-- So events can be added. -/
theorem IsOpen.exists_journal (h : IsOpen cwd stateDir (nameOf e) fs) :
    ∃ fs', fs.journal cwd stateDir e = (fs', true) := by
  obtain ⟨bytes, hfile⟩ := h.file
  refine ⟨fs.append (place cwd stateDir (nameOf e)) (textBytes (line e)), ?_⟩
  rw [Rehearsal.Files.journal, pathOf, ← nameOf, h.parent]
  simp only [if_true, Rehearsal.Files.ready_of_file h.leads hfile]

/-- An event that is added is the last of its journal, which is there then, and no other file
changes. -/
theorem journal_added (h : fs.journal cwd stateDir e = (fs', true)) :
    fs.Within fs' ∧ IsOpen cwd stateDir (nameOf e) fs' ∧
      fs'.held (place cwd stateDir (nameOf e)) =
        fs.held (place cwd stateDir (nameOf e)) ++ contents [e] ∧
      ∀ q, q ≠ place cwd stateDir (nameOf e) → fs'.held q = fs.held q := by
  have hsink := place_ne_sink cwd stateDir (nameOf e)
  rw [Rehearsal.Files.journal, pathOf, ← nameOf] at h
  rcases hmake : fs.makeParent cwd (path stateDir (nameOf e)) with ⟨fs₁, made⟩
  simp only [hmake] at h
  split at h
  · next hmade =>
    split at h
    · simp at h
    · next at_ fs₂ hready =>
      obtain ⟨rfl, -⟩ := Prod.mk.inj h
      obtain ⟨hwithin₁, hheld₁⟩ := makeParent_spec hmake
      obtain ⟨hresolve, hwithin₂, hfile, hheld₂⟩ := Rehearsal.Files.ready_spec hready
      have hat : at_ = place cwd stateDir (nameOf e) := by
        rw [place]
        exact Rehearsal.Files.resolve_eq_goal hresolve
      rw [hat] at hresolve hfile ⊢
      obtain ⟨hwithin₃, hget, hothers⟩ :=
        @Rehearsal.Files.append_spec _ _ (textBytes (line e)) hfile hsink
      have hwithin := hwithin₂.trans hwithin₃
      refine ⟨hwithin₁.trans hwithin, ⟨?_, hwithin.resolve hresolve, _, hget⟩, ?_,
        fun q hq => (hothers q hq).trans ((hheld₂ q).trans (hheld₁ q))⟩
      · rw [makeParent_again hwithin hmake, hmade]
      · rw [held_of_file hget, hheld₂, hheld₁, contents_singleton]
  · simp at h

/-- How a file tree comes to another by some events of a host being written in its journal, and
events of others in other places. -/
structure Written (cwd : Place) (stateDir host : String) (fs fs' : Rehearsal.Files)
    (events : List Event) : Prop where
  held : fs'.held (place cwd stateDir host) = fs.held (place cwd stateDir host) ++ contents events
  isOpen : events ≠ [] → IsOpen cwd stateDir host fs'

namespace Written

variable {fs₁ : Rehearsal.Files} {events : List Event}

theorem nil (fs : Rehearsal.Files) : Written cwd stateDir host fs fs [] where
  held := by simp [contents_nil]
  isOpen h := absurd rfl h

/-- What changes nothing in the journal may come before. -/
theorem unmoved (h : Written cwd stateDir host fs₁ fs' events)
    (hheld : fs₁.held (place cwd stateDir host) = fs.held (place cwd stateDir host)) :
    Written cwd stateDir host fs fs' events where
  held := by rw [h.held, hheld]
  isOpen := h.isOpen

/-- An event of the host may come before. -/
theorem cons (h : Written cwd stateDir (nameOf e) fs₁ fs' events)
    (hjournal : fs.journal cwd stateDir e = (fs₁, true)) (hwithin : fs₁.Within fs') :
    Written cwd stateDir (nameOf e) fs fs' (e :: events) := by
  obtain ⟨-, hopen, hheld, -⟩ := journal_added hjournal
  refine ⟨?_, fun _ => hopen.mono hwithin⟩
  rw [h.held, hheld, List.append_assoc, ← contents_append]
  rfl

/-- The journal is read. -/
theorem read (h : Written cwd stateDir host fs fs' events) (hne : events ≠ []) :
    fs'.read cwd (path stateDir host) =
      .ok (fs.held (place cwd stateDir host) ++ contents events) := by
  obtain ⟨bytes, hfile⟩ := (h.isOpen hne).file
  rw [Rehearsal.Files.read_eq_ok (h.isOpen hne).leads hfile, ← h.held, held_of_file hfile]

end Written

/-! ### All events -/

/-- Events are counted on from any number. -/
theorem foldl_journal (fs : Rehearsal.Files) (n : Nat) (events : List Event) :
    events.foldl (fun (fs, n) e =>
      let (fs, added) := fs.journal cwd stateDir e
      (fs, if added then n + 1 else n)) (fs, n) =
      ((fs.journalAll cwd stateDir events).1, (fs.journalAll cwd stateDir events).2 + n) := by
  induction events generalizing fs n with
  | nil => simp [Rehearsal.Files.journalAll]
  | cons e events ih =>
    rw [List.foldl_cons, Rehearsal.Files.journalAll, List.foldl_cons, ih, ih]
    split
    · rw [Nat.add_comm n, Nat.zero_add, Nat.add_assoc]
    · rfl

/-- Whatever becomes of an event, the others are added as if they were the first. -/
theorem journalAll_cons_refused (h : fs.journal cwd stateDir e = (fs', false))
    (events : List Event) :
    fs.journalAll cwd stateDir (e :: events) = fs'.journalAll cwd stateDir events := by
  rw [Rehearsal.Files.journalAll, List.foldl_cons, foldl_journal, h]
  rfl

theorem journalAll_cons_added (h : fs.journal cwd stateDir e = (fs', true))
    (events : List Event) : fs.journalAll cwd stateDir (e :: events) =
      ((fs'.journalAll cwd stateDir events).1, (fs'.journalAll cwd stateDir events).2 + 1) := by
  rw [Rehearsal.Files.journalAll, List.foldl_cons, foldl_journal, h]
  rfl

theorem journalAll_of_refused {events : List Event}
    (h : ∀ e ∈ events, fs.journal cwd stateDir e = (fs, false)) :
    (fs.journalAll cwd stateDir events).2 = 0 := by
  induction events with
  | nil => rfl
  | cons e events ih =>
    rw [List.forall_mem_cons] at h
    rw [journalAll_cons_refused h.1]
    exact ih h.2

theorem journalAll_of_isOpen (h : IsOpen cwd stateDir host fs) {events : List Event}
    (hhost : ∀ e ∈ events, nameOf e = host) :
    (fs.journalAll cwd stateDir events).2 = events.length := by
  induction events generalizing fs with
  | nil => rfl
  | cons e events ih =>
    obtain ⟨rfl, hhost⟩ := List.forall_mem_cons.1 hhost
    obtain ⟨fs', hjournal⟩ := h.exists_journal
    rw [journalAll_cons_added hjournal, List.length_cons,
      ih (journal_added hjournal).2.1 hhost]

/-- The journal of a host takes all its events, or none. -/
theorem journalAll_none_or_all (fs : Rehearsal.Files) (cwd : Place) (stateDir : String)
    {events : List Event} (hhost : ∀ e ∈ events, nameOf e = host) :
    (fs.journalAll cwd stateDir events).2 = 0 ∨
      (fs.journalAll cwd stateDir events).2 = events.length := by
  cases events with
  | nil => exact .inl rfl
  | cons e events =>
    obtain ⟨rfl, hhost⟩ := List.forall_mem_cons.1 hhost
    rcases hjournal : fs.journal cwd stateDir e with ⟨fs₁, added⟩
    cases added with
    | false =>
      have hrefused := (journal_refused hjournal).2.2
      rw [journalAll_cons_refused hjournal]
      exact .inl (journalAll_of_refused fun e' he' => hrefused e' (hhost e' he'))
    | true =>
      have hopen := (journal_added hjournal).2.1
      rw [journalAll_cons_added hjournal, List.length_cons, journalAll_of_isOpen hopen hhost]
      exact .inr rfl

/-- The events that are added all stand in their journals, behind what was there before. -/
theorem journalAll_spec (fs : Rehearsal.Files) (cwd : Place) (stateDir : String)
    (events : List Event) :
    ∃ written : List Event, written.Sublist events ∧
      written.length = (fs.journalAll cwd stateDir events).2 ∧
      fs.Within (fs.journalAll cwd stateDir events).1 ∧
      ∀ host, (∀ e ∈ events, nameOf e = host ∨
          place cwd stateDir (nameOf e) ≠ place cwd stateDir host) →
        Written cwd stateDir host fs (fs.journalAll cwd stateDir events).1
          (written.filter (nameOf · == host)) := by
  induction events generalizing fs with
  | nil => exact ⟨[], .slnil, rfl, .refl _, fun host _ => .nil _⟩
  | cons e events ih =>
    rcases hjournal : fs.journal cwd stateDir e with ⟨fs₁, added⟩
    obtain ⟨written, hsub, hlength, hwithin, hhosts⟩ := ih fs₁
    cases added with
    | false =>
      obtain ⟨hwithin₁, hheld₁, -⟩ := journal_refused hjournal
      rw [journalAll_cons_refused hjournal]
      refine ⟨written, hsub.cons e, hlength, hwithin₁.trans hwithin, fun host helse => ?_⟩
      exact (hhosts host (List.forall_mem_cons.1 helse).2).unmoved (hheld₁ _)
    | true =>
      obtain ⟨hwithin₁, -, -, hothers₁⟩ := journal_added hjournal
      rw [journalAll_cons_added hjournal]
      refine ⟨e :: written, hsub.cons_cons e, congrArg (· + 1) hlength, hwithin₁.trans hwithin,
        fun host helse => ?_⟩
      obtain ⟨he, helse⟩ := List.forall_mem_cons.1 helse
      by_cases hhost : nameOf e = host
      · subst hhost
        rw [List.filter_cons_of_pos (by simp)]
        exact (hhosts _ helse).cons hjournal hwithin
      · rw [List.filter_cons_of_neg (by simpa using hhost)]
        exact (hhosts host helse).unmoved (hothers₁ _ (he.resolve_left hhost).symm)

/-- Nothing is lost.  Every event is written as a single line from which it can be read back.  Of
events that go to journals, so many as are reported are written, and if all are of one host, none or
all of them: a journal can be made ready for none of them or for all, and what is written to a file
that is ready is not refused in a file tree.  From the lines of the journal of a host all that are
its own are read back in their order, behind the older ones, unless another host keeps its journal
in the same place. -/
theorem lossless :
    (∀ e : Event, e.InRange →
      ('\n' ∉ e.render.toList ∧ '\r' ∉ e.render.toList) ∧ Event.ofText? e.render = some e) ∧
    ∀ (fs : Rehearsal.Files) (cwd : Place) (stateDir : String) (events : List Event),
      ∃ written : List Event, written.Sublist events ∧
        written.length = (fs.journalAll cwd stateDir events).2 ∧
        ∀ host : String,
          ((∀ e ∈ events, nameOf e = host) → written = [] ∨ written = events) ∧
          ∀ old : List Event, (∀ e ∈ old ++ events, e.InRange) →
            (∀ e ∈ events, nameOf e = host ∨
              place cwd stateDir (nameOf e) ≠ place cwd stateDir host) →
            fs.held (place cwd stateDir host) = contents old →
            (∃ e ∈ written, nameOf e = host) →
            ∃ bytes, (fs.journalAll cwd stateDir events).1.read cwd (path stateDir host) =
                .ok bytes ∧
              (Text.lines (Utf8.decode bytes)).map Event.ofText? =
                (old ++ written.filter (nameOf · == host)).map some := by
  refine ⟨fun e he => ?_, fun fs cwd stateDir events => ?_⟩
  · have hvisible := Event.visible_render he
    refine ⟨⟨fun h => ?_, fun h => ?_⟩, Event.ofText?_render he⟩
    all_goals exact absurd (hvisible _ h) (by decide)
  obtain ⟨written, hsub, hlength, -, hhosts⟩ := journalAll_spec fs cwd stateDir events
  refine ⟨written, hsub, hlength, fun host => ⟨fun hone => ?_, ?_⟩⟩
  · rcases journalAll_none_or_all fs cwd stateDir hone with hnone | hall
    · exact .inl (List.length_eq_zero_iff.1 (hlength.trans hnone))
    · exact .inr (hsub.eq_of_length (hlength.trans hall))
  intro old hrange helse hold hsome
  obtain ⟨e, he, hname⟩ := hsome
  have hne : written.filter (nameOf · == host) ≠ [] :=
    List.ne_nil_of_mem (List.mem_filter.2 ⟨he, beq_iff_eq.2 hname⟩)
  have hread := (hhosts host helse).read hne
  rw [hold, ← contents_append] at hread
  refine ⟨_, hread, lines_contents fun e he => hrange e ?_⟩
  refine List.mem_append.2 ((List.mem_append.1 he).imp_right fun he => ?_)
  exact hsub.subset (List.mem_of_mem_filter he)

/-- Two events of a host, with another one between them. -/
def sample : List Event :=
  [⟨"2026-01-01T00:00:00.000Z", some "web1", .hostFinished 1 0 0 (some "say \"no\"\n\\")⟩,
    ⟨"2026-01-01T00:00:00.001Z", none, .taskCompiled "web.install" 2⟩,
    ⟨"2026-01-01T00:00:00.002Z", some "web1", .commandFinished "web.install" 0 "5e" (-1) 20 none⟩]

theorem sample_lossless :
    (∃ e ∈ sample, '\n' ∉ e.render.toList ∧ Event.ofText? e.render = some e) ∧
      ∃ bytes, ((⟨[]⟩ : Rehearsal.Files).journalAll [] "state" sample).1.read []
            (path "state" "web1") = .ok bytes ∧
        (Text.lines (Utf8.decode bytes)).map Event.ofText? =
          (sample.filter (nameOf · == "web1")).map some := by
  have hrange : ∀ e ∈ sample, e.InRange := by
    have hpow : 1 ≤ Int.pow 2 31 ∧ -1 < Int.pow 2 31 := by decide
    simp [sample, Event.InRange, Happening.InRange, hpow]
  obtain ⟨written, hsub, hlength, hhosts⟩ := lossless.2 ⟨[]⟩ [] "state" sample
  obtain rfl : written = sample := hsub.eq_of_length (hlength.trans (by decide +kernel))
  refine ⟨⟨_, List.mem_cons_self, ?_⟩, ?_⟩
  · have hfirst := lossless.1 _ (hrange _ List.mem_cons_self)
    exact ⟨hfirst.1.1, hfirst.2⟩
  · refine (hhosts "web1").2 [] hrange ?_ (by decide +kernel) ⟨_, List.mem_cons_self, rfl⟩
    have hfleet : place [] "state" fleetName ≠ place [] "state" "web1" :=
      place_ne (by decide) (by decide) (by decide)
    simp [sample, nameOf, hfleet]

end Journal

end Provisioning
