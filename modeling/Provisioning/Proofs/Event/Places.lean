import Provisioning.Config.Issue
import Provisioning.Proofs.Event.Journal

/-!
# Where journals lie

The journal of a host lies in the directory to which the name of the host leads from the state
directory, and the name is followed as a path.  Nothing in a configuration is refused for the names
of its machines, so a journal may lie outside of the state directory, or be that of another host.

* `Files.goal_of_wayDown`, `Files.not_mem_goal` : paths that lead down from wherever they are
  followed, and what becomes of the others;
* `Config.issues_withMachines` : machines with addresses are never a fault;
* `Config.keepsApart_of_own`, `Config.own_of_keepsApart` : when journals lie apart and inside of
  every state directory;
* `Config.journals_apart` : where they lie, and exactly when that is so.
-/

namespace Provisioning

namespace Rehearsal

namespace Files

variable {at_ way : Place} {ns : List String} {path name n : String}

/-- The place that a name leads to on a way down; none if it leads above the beginning. -/
def descend? (at_ : Place) (name : String) : Option Place :=
  if name = ".." ∧ at_ = [] then none else some (turn at_ name)

/-- The way that a path leads down from wherever it is followed; none if it starts at the root, or
leads above the place from which it is followed. -/
def wayDown? (path : String) : Option Place :=
  if Path.isAbsolute path then none else (names path).foldlM descend? []

theorem turn_append (h : ¬ (name = ".." ∧ at_ = [])) (base : Place) :
    turn (base ++ at_) name = base ++ turn at_ name := by
  by_cases hdot : name = "."
  · simp [turn, hdot]
  by_cases hdots : name = ".."
  · have hne : at_ ≠ [] := fun he => h ⟨hdots, he⟩
    simp [turn, hdots, List.dropLast_append_of_ne_nil hne]
  · simp [turn, hdot, hdots]

theorem foldl_turn_append (h : ns.foldlM descend? at_ = some way) (base : Place) :
    ns.foldl turn (base ++ at_) = base ++ way := by
  induction ns generalizing at_ with
  | nil => rw [List.foldl_nil, Option.some.inj h]
  | cons name ns ih =>
    rw [List.foldlM_cons, Option.bind_eq_bind, Option.bind_eq_some_iff] at h
    obtain ⟨next, hnext, hrest⟩ := h
    obtain ⟨hup, hturn⟩ := Option.ite_none_left_eq_some.1 hnext
    obtain rfl := Option.some.inj hturn
    rw [List.foldl_cons, turn_append hup, ih hrest]

/-- A path with a way down adds that way to wherever it is followed. -/
theorem goal_of_wayDown (h : wayDown? path = some way) (base : Place) :
    goal base path = base ++ way := by
  obtain ⟨habs, hway⟩ := Option.ite_none_left_eq_some.1 h
  have hhead : ¬ (path.toList.head? == some '/') = true := habs
  rw [goal, if_neg hhead]
  simpa using foldl_turn_append hway base

theorem mem_of_mem_turn (h : n ∈ turn at_ name) : n ∈ at_ ∨ n = name := by
  rw [turn] at h
  split at h
  · exact .inl h
  · split at h
    · exact .inl ((List.dropLast_sublist at_).subset h)
    · simpa using h

theorem mem_of_mem_foldl_turn (h : n ∈ ns.foldl turn at_) : n ∈ at_ ∨ n ∈ ns := by
  induction ns generalizing at_ with
  | nil => exact .inl h
  | cons name ns ih =>
    rcases ih h with h | h
    · rcases mem_of_mem_turn h with h | rfl
      · exact .inl h
      · exact .inr List.mem_cons_self
    · exact .inr (List.mem_cons_of_mem _ h)

/-- What leads above a directory leads out of it, unless its names lead back. -/
theorem not_mem_foldl_turn (h : ns.foldlM descend? at_ = none) (hns : n ∉ ns) (hat : n ∉ at_) :
    n ∉ ns.foldl turn (n :: at_) := by
  induction ns generalizing at_ with
  | nil => simp at h
  | cons name ns ih =>
    rw [List.mem_cons, not_or] at hns
    rw [List.foldl_cons]
    by_cases hup : name = ".." ∧ at_ = []
    · obtain ⟨rfl, rfl⟩ := hup
      intro hmem
      exact (mem_of_mem_foldl_turn hmem).elim (by simp [turn]) hns.2
    · rw [List.foldlM_cons, descend?, if_neg hup] at h
      have hturn : n ∉ turn at_ name := fun hmem => (mem_of_mem_turn hmem).elim hat hns.1
      have happend : turn (n :: at_) name = n :: turn at_ name := turn_append hup [n]
      rw [happend]
      exact ih h hns.2 hturn

/-- A path without a way down leads out of a directory whose name is none of its own. -/
theorem not_mem_goal (h : wayDown? path = none) (hn : n ∉ names path) : n ∉ goal [n] path := by
  rw [goal]
  cases habs : Path.isAbsolute path with
  | true =>
    have hhead : (path.toList.head? == some '/') = true := habs
    rw [if_pos hhead]
    exact fun hmem => (mem_of_mem_foldl_turn hmem).elim (by simp) hn
  | false =>
    have hhead : ¬ (path.toList.head? == some '/') = true := by simpa [Path.isAbsolute] using habs
    rw [wayDown?, habs] at h
    rw [if_neg hhead]
    exact not_mem_foldl_turn h hn (by simp)

end Files

end Rehearsal

open Rehearsal (Place)
open Rehearsal.Files (goal goal_join goal_of_slashless names names_of_slashless turn wayDown?
  descend? goal_of_wayDown not_mem_goal)

namespace Journal

theorem wayDown?_of_plain {host : String} (h : IsPlain host) : wayDown? host = some [host] := by
  obtain ⟨hs, hne, hdot, hdots⟩ := h
  have habs : ¬ Path.isAbsolute host = true := fun habs =>
    hs (List.mem_of_head? (beq_iff_eq.1 habs))
  rw [wayDown?, if_neg habs, names_of_slashless hne hs]
  simp [descend?, turn, hdot, hdots]

/-- There is always one more name for a directory. -/
theorem exists_plain_not_mem (ns : List String) : ∃ n, IsPlain n ∧ n ∉ ns := by
  obtain ⟨k, hk⟩ : ∃ k, ∀ n ∈ ns, n.length < k := by
    induction ns with
    | nil => exact ⟨0, by simp⟩
    | cons n ns ih =>
      obtain ⟨k, hk⟩ := ih
      refine ⟨n.length + 1 + k, List.forall_mem_cons.2 ⟨by omega, fun m hm => ?_⟩⟩
      have := hk m hm
      omega
  -- a name that is longer than all of them, and than `..`
  have hlength : (String.ofList (List.replicate (k + 3) 'x')).length = k + 3 := by simp
  have hne : ∀ n : String, n.length < k + 3 → String.ofList (List.replicate (k + 3) 'x') ≠ n := by
    rintro n hn rfl
    omega
  refine ⟨String.ofList (List.replicate (k + 3) 'x'), ⟨by simp [List.mem_replicate], hne _ ?_,
    hne _ ?_, hne _ ?_⟩, fun hmem => ?_⟩
  · simp
  · rw [show ".".length = 1 from rfl]
    omega
  · rw [show "..".length = 2 from rfl]
    omega
  · have := hk _ hmem
    omega

/-- The journal of an event lies where the name of its host leads from the state directory. -/
theorem goal_pathOf (cwd : Place) (stateDir : String) (e : Event) :
    goal cwd (pathOf stateDir e) = goal (goal cwd stateDir) (nameOf e) ++ ["events.jsonl"] := by
  rw [pathOf, ← nameOf, ← place, place_eq]

/-- A directory right below the root. -/
theorem goal_join_root {n : String} (h : IsPlain n) (cwd : Place) :
    goal cwd (Path.join "/" n) = [n] := by
  obtain ⟨hs, hne, hdot, hdots⟩ := h
  have hroot : goal cwd "/" = [] := rfl
  rw [goal_join, hroot, goal_of_slashless hne hs]
  simp [turn, hdot, hdots]

end Journal

/-! ### The machines of a configuration -/

/-- Whether an event concerns a machine of a configuration, or no host at all. -/
def Event.IsOf (e : Event) (c : Config) : Prop :=
  ∀ host, e.host? = some host → host ∈ c.machines.names

namespace Config

variable {c : Config}

/-- Whether the events of a configuration go to journals below the state directory, those of
different hosts, and those of none, to different ones. -/
structure KeepsApart (c : Config) (cwd : Place) (stateDir : String) : Prop where
  below : ∀ {e : Event}, e.IsOf c → ∃ way, way ≠ [] ∧
    goal cwd (Journal.pathOf stateDir e) = goal cwd stateDir ++ way
  apart : ∀ {e e' : Event}, e.IsOf c → e'.IsOf c → e.host? ≠ e'.host? →
    goal cwd (Journal.pathOf stateDir e) ≠ goal cwd (Journal.pathOf stateDir e')

/-- Whether the names of machines lead down to directories of their own. -/
structure HasOwnDirectories (c : Config) : Prop where
  down : ∀ id ∈ c.machines.names, wayDown? id ≠ none
  unreserved : ∀ id ∈ c.machines.names, wayDown? id ≠ some [Journal.fleetName]
  distinct : ∀ id ∈ c.machines.names, ∀ id' ∈ c.machines.names,
    wayDown? id = wayDown? id' → id = id'

/-- Names that are single names, and not the reserved one, lead to directories of their own. -/
theorem own_of_plain
    (h : ∀ id ∈ c.machines.names, Journal.IsPlain id ∧ id ≠ Journal.fleetName) :
    c.HasOwnDirectories where
  down id hid := by simp [Journal.wayDown?_of_plain (h id hid).1]
  unreserved id hid := by simp [Journal.wayDown?_of_plain (h id hid).1, (h id hid).2]
  distinct id hid id' hid' heq := by
    rw [Journal.wayDown?_of_plain (h id hid).1, Journal.wayDown?_of_plain (h id' hid').1] at heq
    simpa using heq

/-- Machines are a fault only if they have no address: their names may be any. -/
theorem issues_withMachines (h : c.issues = []) {ms : Named Machine}
    (hms : ∀ e ∈ ms.entries, e.2.addr ≠ "") : { c with machines := ms }.issues = [] := by
  simp only [issues, List.append_eq_nil_iff, List.filterMap_eq_nil_iff] at h ⊢
  obtain ⟨⟨⟨⟨⟨⟨hversion, hname⟩, -⟩, hsettings⟩, hsteps⟩, hrecipes⟩, horder⟩ := h
  exact ⟨⟨⟨⟨⟨⟨hversion, hname⟩, fun e he => if_neg (hms e he)⟩, hsettings⟩, hsteps⟩, hrecipes⟩,
    horder⟩

variable {e e' : Event} {cwd : Place} {stateDir : String}

theorem HasOwnDirectories.exists_way (h : c.HasOwnDirectories) (he : e.IsOf c) :
    ∃ way, wayDown? (Journal.nameOf e) = some way := by
  rw [Journal.nameOf]
  cases hhost : e.host? with
  | none => exact ⟨_, Journal.wayDown?_of_plain (by decide)⟩
  | some id => exact Option.ne_none_iff_exists'.1 (h.down id (he id hhost))

theorem HasOwnDirectories.wayDown?_ne (h : c.HasOwnDirectories) (he : e.IsOf c) (he' : e'.IsOf c)
    (hne : e.host? ≠ e'.host?) :
    wayDown? (Journal.nameOf e) ≠ wayDown? (Journal.nameOf e') := by
  have hfleet : wayDown? Journal.fleetName = some [Journal.fleetName] :=
    Journal.wayDown?_of_plain (by decide)
  rw [Journal.nameOf, Journal.nameOf]
  cases hhost : e.host? with
  | none =>
    cases hhost' : e'.host? with
    | none => exact absurd (hhost.trans hhost'.symm) hne
    | some id' =>
      rw [Option.getD_none, Option.getD_some, hfleet]
      exact (h.unreserved id' (he' id' hhost')).symm
  | some id =>
    cases hhost' : e'.host? with
    | none =>
      rw [Option.getD_none, Option.getD_some, hfleet]
      exact h.unreserved id (he id hhost)
    | some id' =>
      intro heq
      obtain rfl := h.distinct id (he id hhost) id' (he' id' hhost') heq
      exact hne (hhost.trans hhost'.symm)

/-- Where the names of machines lead to directories of their own, so do they from every state
directory. -/
theorem keepsApart_of_own (h : c.HasOwnDirectories) (cwd : Place) (stateDir : String) :
    c.KeepsApart cwd stateDir where
  below {e} he := by
    obtain ⟨way, hway⟩ := h.exists_way he
    refine ⟨way ++ ["events.jsonl"], by simp, ?_⟩
    rw [Journal.goal_pathOf, goal_of_wayDown hway, List.append_assoc]
  apart {e e'} he he' hne heq := by
    obtain ⟨way, hway⟩ := h.exists_way he
    obtain ⟨way', hway'⟩ := h.exists_way he'
    rw [Journal.goal_pathOf, Journal.goal_pathOf, goal_of_wayDown hway, goal_of_wayDown hway',
      List.append_cancel_right_eq, List.append_cancel_left_eq] at heq
    exact h.wayDown?_ne he he' hne (by rw [hway, hway', heq])

/-- Hosts whose names lead down the same way have the same journal. -/
theorem KeepsApart.host?_eq (h : c.KeepsApart cwd stateDir) (he : e.IsOf c) (he' : e'.IsOf c)
    {way : Place} (hway : wayDown? (Journal.nameOf e) = some way)
    (hway' : wayDown? (Journal.nameOf e') = some way) : e.host? = e'.host? := by
  by_contra hne
  refine h.apart he he' hne ?_
  rw [Journal.goal_pathOf, Journal.goal_pathOf, goal_of_wayDown hway, goal_of_wayDown hway']

/-- A name that does not lead down leads out of a state directory that it does not name. -/
theorem exists_way_of_keepsApart (h : ∀ stateDir, c.KeepsApart cwd stateDir) (he : e.IsOf c) :
    ∃ way, wayDown? (Journal.nameOf e) = some way := by
  rw [← Option.ne_none_iff_exists']
  intro hnone
  obtain ⟨n, hn, hnot⟩ :=
    Journal.exists_plain_not_mem ("events.jsonl" :: names (Journal.nameOf e))
  rw [List.mem_cons, not_or] at hnot
  obtain ⟨way, -, hway⟩ := (h (Path.join "/" n)).below he
  rw [Journal.goal_pathOf, Journal.goal_join_root hn] at hway
  have hmem : n ∈ goal [n] (Journal.nameOf e) ++ ["events.jsonl"] :=
    hway ▸ List.mem_append_left _ List.mem_cons_self
  rcases List.mem_append.1 hmem with hmem | hmem
  · exact not_mem_goal hnone hnot.2 hmem
  · exact hnot.1 (List.mem_singleton.1 hmem)

/-- So names that keep journals apart in every state directory lead to directories of their own. -/
theorem own_of_keepsApart (h : ∀ stateDir, c.KeepsApart cwd stateDir) : c.HasOwnDirectories := by
  -- an event of no host, and one of each machine
  have hfleet : (⟨"", none, .taskCompiled "" 0⟩ : Event).IsOf c := by simp [Event.IsOf]
  have hmachine : ∀ id ∈ c.machines.names, (⟨"", some id, .taskCompiled "" 0⟩ : Event).IsOf c := by
    rintro id hid _ ⟨rfl⟩
    exact hid
  have hway : ∀ id ∈ c.machines.names, ∃ way, wayDown? id = some way := by
    intro id hid
    have hexists := exists_way_of_keepsApart h (hmachine id hid)
    rwa [Journal.nameOf, Option.getD_some] at hexists
  refine ⟨fun id hid => ?_, fun id hid hreserved => ?_, fun id hid id' hid' heq => ?_⟩
  · exact Option.ne_none_iff_exists'.2 (hway id hid)
  · have hhost := (h ".").host?_eq (hmachine id hid) hfleet hreserved
      (Journal.wayDown?_of_plain (by decide))
    simp at hhost
  · obtain ⟨way, hid₁⟩ := hway id hid
    have hhost := (h ".").host?_eq (hmachine id hid) (hmachine id' hid') hid₁ (heq ▸ hid₁)
    exact Option.some.inj hhost

/-- Where the journals of a configuration without faults lie.  Their directories are where the names
of the hosts lead as paths from the state directory, and the names may be any: with other machines
the configuration is without faults as well, if they have addresses.  So the journals lie below
every state directory, and those of different hosts apart, exactly if the names of the machines lead
down to directories of their own, none of them the reserved one; they do if they are single names. -/
theorem journals_apart (h : c.issues = []) :
    (∀ ms : Named Machine, (∀ e ∈ ms.entries, e.2.addr ≠ "") →
      { c with machines := ms }.issues = []) ∧
    (∀ cwd stateDir e, goal cwd (Journal.pathOf stateDir e) =
      goal (goal cwd stateDir) (Journal.nameOf e) ++ ["events.jsonl"]) ∧
    (∀ cwd, (∀ stateDir, c.KeepsApart cwd stateDir) ↔ c.HasOwnDirectories) ∧
    ((∀ id ∈ c.machines.names, Journal.IsPlain id ∧ id ≠ Journal.fleetName) →
      c.HasOwnDirectories) :=
  ⟨fun _ hms => issues_withMachines h hms, Journal.goal_pathOf,
    fun cwd => ⟨own_of_keepsApart, fun hown => keepsApart_of_own hown cwd⟩, own_of_plain⟩

/-! ### Two configurations -/

/-- A configuration of machines with these names. -/
def withNames (names : List String) : Config where
  version := "1.0"
  name := "c"
  machines := .ofList (names.map fun id => (id, { hostname := "m", addr := "127.0.0.1" }))

/-- Single names give journals of their own, whatever they begin with. -/
theorem pair_journals_apart :
    (withNames ["web1", "..web1"]).issues = [] ∧
      ∀ cwd stateDir, (withNames ["web1", "..web1"]).KeepsApart cwd stateDir := by
  have hissues : (withNames ["web1", "..web1"]).issues = [] := by decide +kernel
  obtain ⟨-, -, hiff, hplain⟩ := journals_apart hissues
  exact ⟨hissues, fun cwd => (hiff cwd).2 (hplain (by decide))⟩

/-- A configuration of machines whose names are no single names, or the reserved one. -/
def scattered : Config := withNames ["_fleet", "..", "web1", "./web1", "/srv"]

/-- It is without faults, but one machine shares its journal with the events of no host and two
machines share one, and the journals of two machines lie outside of the state directory. -/
theorem scattered_journals_mixed :
    scattered.issues = [] ∧ ¬ scattered.KeepsApart [] "/state" ∧
      Journal.place [] "/state" "_fleet" = Journal.place [] "/state" Journal.fleetName ∧
      Journal.place [] "/state" "./web1" = Journal.place [] "/state" "web1" ∧
      Journal.place [] "/state" ".." = ["events.jsonl"] ∧
      Journal.place [] "/state" "/srv" = ["srv", "events.jsonl"] := by
  have hstate : goal [] "/state" = ["state"] := by decide
  have hfleet : (⟨"", none, .taskCompiled "" 0⟩ : Event).IsOf scattered := by simp [Event.IsOf]
  have hmachine : (⟨"", some "_fleet", .taskCompiled "" 0⟩ : Event).IsOf scattered := by
    rintro _ ⟨rfl⟩
    decide
  simp only [Journal.place_eq, hstate]
  refine ⟨by decide +kernel, fun h => ?_, rfl, by decide, by decide, by decide⟩
  have hhost := h.host?_eq hmachine hfleet (Journal.wayDown?_of_plain (by decide))
    (Journal.wayDown?_of_plain (by decide))
  simp at hhost

end Config

end Provisioning
