import Provisioning.Proofs.Run.Course

/-!
# The phases of a run

A run opens with scripts that do nothing to the cache: those that prepare the host, and the
listing.  What the listing shows decides on the deeds, which are then performed in order.  In the
end something is told.  This holds in every world, whatever its exchanges come to.

* `Exchange.Opens` : what passes before the first deed;
* `Runner.goes_phases` : every course of a run is one in these phases, or a part of one;
* `Runner.plan_eq` : a dry run has no other phase than the listing.
-/

namespace Provisioning

variable {r : Runner}

/-! ### The opening -/

/-- The scripts that are sent before the first deed. -/
def Runner.opening (r : Runner) : List String :=
  ["id -nG",
    strictShell (r.settings.elevation.applies r.user) (setupScript r.settings r.user),
    Cache.listingScript r.settings.cacheRoot]

/-- Whether an exchange is one of those before the first deed. -/
def Exchange.Opens (r : Runner) : Exchange → Prop
  | asked call _ => call.shell ∈ r.opening
  | closed _ => True
  | told what => (Exchange.told what).Quiet
  | logged _ _ => False

/-- What passes before the first deed concerns neither commands nor files. -/
theorem Exchange.Opens.harmless {x : Exchange} (h : x.Opens r) : x.Quiet ∧ x.effect = [] := by
  cases x with
  | asked call reply =>
    refine ⟨trivial, ?_⟩
    simp only [Opens, Runner.opening, List.mem_cons, List.not_mem_nil, or_false] at h
    show Shell.effect call.shell = []
    rcases h with h | h | h
    · rw [h, effect_listGroups]
    · rw [h, effect_strictShell]
    · rw [h, effect_listingScript]
  | closed result => exact ⟨trivial, rfl⟩
  | told what => exact ⟨h, rfl⟩
  | logged job result => exact absurd h id

theorem opens_prepare : (Script.ofTalk (prepare r.settings r.user)).Only (Exchange.Opens r) := by
  refine Script.only_capture (by simp [Exchange.Opens, Runner.opening]) fun output => ?_
  cases output with
  | error e => trivial
  | ok ids =>
    show (Script.ofTalk (if _ then _ else if _ then _ else _)).Only _
    split
    · trivial
    split
    · trivial
    refine Script.only_capture (by simp [Exchange.Opens, Runner.opening]) fun output => ?_
    cases output with
    | error e => trivial
    | ok out =>
      show (Script.ofTalk (if _ then _ else _)).Only _
      split
      · trivial
      · intro result
        cases result <;> exact ⟨trivial, trivial⟩

theorem opens_prepareIfManaged : r.prepareIfManaged.Only (Exchange.Opens r) := by
  rw [Runner.prepareIfManaged]
  split
  · exact opens_prepare.bind fun _ => trivial
  · trivial

/-- What the inventory of a host says, if the host answers. -/
def inventoried (root : String) (reply : Reply) : Except InventoryError Inventory :=
  match reply.output with
  | .error e => .error (.transport e)
  | .ok out =>
    if out.succeeded then (Inventory.ofListing root out.stdout).mapError .fault
    else .error (.listing out.exitCode out.complaint)

theorem ofTalk_takeInventory (root : String) :
    Script.ofTalk (takeInventory root) =
      .ask ⟨Cache.listingScript root, []⟩ fun reply => .done (inventoried root reply) := by
  show Script.ask _ _ = Script.ask _ _
  congr 1
  funext reply
  show Script.ofTalk (match reply.output with | .error e => _ | .ok out => _) = _
  rw [inventoried]
  cases reply.output with
  | error e => rfl
  | ok out =>
    show Script.ofTalk (if _ then _ else _) = _
    split <;> simp [*] <;> rfl

/-- The listing of the cache is one exchange, and what comes after depends on the reply alone. -/
theorem goes_takeInventory {σ α : Type} {W : σ → Exchange → σ → Prop} {w w' : σ}
    {ms : List (Moment σ)} {root : String} {next : Except InventoryError Inventory → Script α}
    {s' : Script α} (h : (Script.ofTalk (takeInventory root) >>= next).Goes W w ms s' w') :
    (ms = [] ∧ ∀ a, s' ≠ .done a) ∨
      ∃ reply w₁ rest, ms = ⟨.asked ⟨Cache.listingScript root, []⟩ reply, w₁⟩ :: rest ∧
        (next (inventoried root reply)).Goes W w₁ rest s' w' := by
  rw [ofTalk_takeInventory] at h
  rcases Script.goes_ask h with ⟨rfl, rfl, -⟩ | ⟨reply, w₁, rest, rfl, -, ht⟩
  · exact .inl ⟨rfl, fun a ha => by cases ha⟩
  · exact .inr ⟨reply, w₁, rest, rfl, ht⟩

/-- An inventory is one that an accepted listing shows. -/
theorem inventoried_eq_ok_iff {root : String} {reply : Reply} {inv : Inventory} :
    inventoried root reply = .ok inv ↔
      ∃ out, reply.output = .ok out ∧ out.succeeded ∧
        Inventory.ofListing root out.stdout = .ok inv := by
  rw [inventoried]
  cases ho : reply.output with
  | error e => simp
  | ok out =>
    cases hs : out.succeeded with
    | false => simp [hs]
    | true => cases hl : Inventory.ofListing root out.stdout <;> simp [hs, hl, Except.mapError]

/-! ### Phases -/

variable {σ : Type} {W : σ → Exchange → σ → Prop} {w w' : σ} {ms : List (Moment σ)}
  {tasks : List Task}

/-- The course of a run in its phases, but for what is told in the end; `ends c` says that it comes
to a good end with the counts `c`. -/
inductive Phases (W : σ → Exchange → σ → Prop) (r : Runner) (tasks : List Task)
    (ms : List (Moment σ)) (w' : σ) (ends : Counts → Prop) : Prop
  /-- It has not come to a deed. -/
  | opening (h : ∀ m ∈ ms, m.exchange.Opens r) (hend : ∀ c, ¬ ends c)
  /-- It has listed the cache and performs the deeds that follow from that. -/
  | working {before deeds : List (Moment σ)} {reply : Reply} {inv : Inventory}
      {t : Script (Except RunError Unit)} {w₁ : σ}
      (moments : ms = before ++
        ⟨.asked ⟨Cache.listingScript r.settings.cacheRoot, []⟩ reply, w₁⟩ :: deeds)
      (opens : ∀ m ∈ before, m.exchange.Opens r)
      (listing : inventoried r.settings.cacheRoot reply = .ok inv)
      (goes : (r.performAll (Task.itinerary tasks inv)).run.Goes W w₁ deeds t w')
      (hend : ∀ c, ends c → t = .done (.ok ()) ∧ c = Task.tally tasks inv .zero)

/-- The end of a run is told of, if it is not cut off before. -/
inductive Closing (W : σ → Exchange → σ → Prop) (w : σ) : List (Moment σ) → σ → Prop
  | cut : Closing W w [] w
  | told {w' : σ} {what : Happening} (hq : (Exchange.told what).Quiet)
      (hw : W w (.told what) w') : Closing W w [⟨.told what, w'⟩] w'

namespace Phases

variable {ends ends' : Counts → Prop}

theorem mono (h : Phases W r tasks ms w' ends) (hends : ∀ c, ends' c → ends c) :
    Phases W r tasks ms w' ends' := by
  cases h with
  | opening h hend => exact .opening h fun c hc => hend c (hends c hc)
  | working moments opens listing goes hend =>
    exact .working moments opens listing goes fun c hc => hend c (hends c hc)

/-- What belongs to the opening may pass before. -/
theorem after {ms₁ : List (Moment σ)} (h₁ : ∀ m ∈ ms₁, m.exchange.Opens r)
    (h : Phases W r tasks ms w' ends) : Phases W r tasks (ms₁ ++ ms) w' ends := by
  cases h with
  | opening h hend => exact .opening (List.forall_mem_append.2 ⟨h₁, h⟩) hend
  | working moments opens listing goes hend =>
    rw [moments, ← List.append_assoc]
    exact .working rfl (List.forall_mem_append.2 ⟨h₁, opens⟩) listing goes hend

end Phases

namespace Runner

/-- The deeds of tasks, with what these count for, whatever becomes of them. -/
theorem goes_runTasks {inv : Inventory} {counts : Counts}
    {s' : Script (Except RunError Unit × Counts)}
    (h : (r.runTasks tasks inv counts).Goes W w ms s' w') :
    ∃ t, (r.performAll (Task.itinerary tasks inv)).run.Goes W w ms t w' ∧
      ∀ c, s' = .done (.ok (), c) → t = .done (.ok ()) ∧ c = Task.tally tasks inv counts := by
  -- up to what it says in the end, this is the course of the deeds
  have hmap := h.map Runner.outcome
  rw [Runner.outcome_runTasks, ExceptT.run_bind] at hmap
  rcases Script.goes_bind hmap with ⟨t, h₁, -, hne⟩ | ⟨res, w₁, ms₁, ms₂, rfl, h₁, h₂⟩
  · refine ⟨t, h₁, ?_⟩
    rintro c rfl
    exact absurd rfl (hne (.ok c))
  · cases res with
    | error e =>
      obtain ⟨rfl, hs, rfl⟩ := Script.goes_done (a := (.error e : Except RunError Counts)) h₂
      rw [List.append_nil]
      refine ⟨_, h₁, ?_⟩
      rintro c rfl
      cases hs
    | ok u =>
      obtain ⟨rfl, hs, rfl⟩ :=
        Script.goes_done (a := (.ok (Task.tally tasks inv counts) : Except RunError Counts)) h₂
      rw [List.append_nil]
      refine ⟨_, h₁, ?_⟩
      rintro c rfl
      exact ⟨rfl, Except.ok.inj (Script.done.inj hs)⟩

theorem goes_runHost {s' : Script (Except RunError Unit × Counts)}
    (h : (r.runHost tasks).Goes W w ms s' w') :
    Phases W r tasks ms w' fun c => s' = .done (.ok (), c) := by
  rw [runHost] at h
  rcases Script.goes_bind h with ⟨s₁, h₁, rfl, hne⟩ | ⟨res, w₁, ms₁, ms₂, rfl, h₁, h₂⟩
  · -- cut off before the cache was listed
    exact .opening (h₁.forall_exchange opens_prepareIfManaged) fun c => hne _
  refine .after (h₁.forall_exchange opens_prepareIfManaged) ?_
  cases res with
  | error e =>
    -- the group of the cache could not be prepared
    obtain ⟨rfl, rfl, rfl⟩ := Script.goes_done h₂
    exact .opening (by simp) fun c hc => by cases hc
  | ok _ =>
    rcases goes_takeInventory h₂ with ⟨rfl, hne⟩ | ⟨reply, w₂, rest, rfl, ht⟩
    · exact .opening (by simp) fun c => hne _
    cases hinv : inventoried r.settings.cacheRoot reply with
    | error e =>
      -- the cache could not be listed, or holds what is no marker
      rw [hinv] at ht
      obtain ⟨rfl, rfl, rfl⟩ := Script.goes_done ht
      have hopens : (Exchange.asked ⟨Cache.listingScript r.settings.cacheRoot, []⟩ reply).Opens r :=
        by simp [Exchange.Opens, opening]
      exact .opening (by simpa using hopens) fun c hc => by cases hc
    | ok inv =>
      rw [hinv] at ht
      obtain ⟨t, hgoes, hend⟩ := goes_runTasks ht
      exact .working (List.nil_append _).symm (by simp) hinv hgoes hend

/-- The course of a run is one in phases, after which its end is told of. -/
theorem goes_phases {s' : Script (Except RunError Counts)}
    (h : (r.provision tasks).Goes W w ms s' w') :
    ∃ ms₁ closing s₁ w₁, ms = ms₁ ++ closing ∧ (r.provision tasks).Goes W w ms₁ s₁ w₁ ∧
      Closing W w₁ closing w' ∧ Phases W r tasks ms₁ w₁ fun c => s' = .done (.ok c) := by
  rcases Script.goes_tell h with ⟨rfl, rfl, rfl⟩ | ⟨w₁, rest, rfl, hw, ht⟩
  · exact ⟨[], [], _, _, rfl, h, .cut, .opening (by simp) fun c hc => by cases hc⟩
  have hstart : ∀ m ∈ [(⟨.told (.hostStarted tasks.length false), w₁⟩ : Moment σ)],
      m.exchange.Opens r := by
    rw [List.forall_mem_singleton]
    trivial
  rcases Script.goes_bind (s := r.runHost tasks) ht with
    ⟨s₁, h₁, rfl, hne⟩ | ⟨⟨result, counts⟩, w₂, ms₁, ms₂, rfl, h₁, h₂⟩
  · -- cut off before the end was told of, so that there is none
    refine ⟨_, [], _, _, (List.append_nil _).symm, h, .cut, ?_⟩
    exact .after hstart ((goes_runHost h₁).mono fun c hc => absurd hc (hne _))
  refine ⟨_ :: ms₁, ms₂, _, w₂, rfl, .next (.tell _ _) hw (h₁.bind _), ?_⟩
  rcases Script.goes_tell h₂ with ⟨rfl, rfl, rfl⟩ | ⟨w₃, rest, rfl, hw', ht'⟩
  · exact ⟨.cut, .after hstart ((goes_runHost h₁).mono fun c hc => by cases hc)⟩
  obtain ⟨rfl, rfl, rfl⟩ := Script.goes_done (a := result.map fun _ => counts) ht'
  refine ⟨.told trivial hw', .after hstart ((goes_runHost h₁).mono fun c hc => ?_)⟩
  cases result with
  | error e => cases hc
  | ok _ =>
    cases hc
    rfl

/-! ### Dry runs -/

/-- What a dry run says when the listing of the cache was answered. -/
def forecast (r : Runner) (tasks : List Task) (reply : Reply) : Except RunError (List Plan) :=
  match inventoried r.settings.cacheRoot reply with
  | .error e => .error (.inventory e)
  | .ok inv => .ok (tasks.map fun task => Plan.ofTask task (inv.sums task.name))

/-- A dry run sends nothing but the script that lists the cache. -/
theorem plan_eq (r : Runner) (tasks : List Task) : r.plan tasks =
    .tell (.hostStarted tasks.length true)
      (.ask ⟨Cache.listingScript r.settings.cacheRoot, []⟩ fun reply =>
        .done (r.forecast tasks reply)) := by
  show Script.tell _ (Script.ofTalk (takeInventory r.settings.cacheRoot) >>= fun listed =>
    (match listed with
    | .error e => pure (.error (.inventory e))
    | .ok inv => pure (.ok (tasks.map fun task => Plan.ofTask task (inv.sums task.name))) :
      Script (Except RunError (List Plan)))) = _
  rw [ofTalk_takeInventory]
  show Script.tell _ (Script.ask _ _) = Script.tell _ (Script.ask _ _)
  congr 2
  funext reply
  rw [forecast]
  show Script.bind (.done (inventoried r.settings.cacheRoot reply)) _ = _
  cases inventoried r.settings.cacheRoot reply <;> rfl

theorem opens_plan : (r.plan tasks).Only (Exchange.Opens r) := by
  rw [plan_eq]
  refine ⟨trivial, fun reply => ⟨?_, trivial⟩⟩
  simp [Exchange.Opens, opening]

/-- What passes in a dry run. -/
theorem exchanges_plan {s' : Script (Except RunError (List Plan))}
    (h : (r.plan tasks).Goes W w ms s' w') :
    ∃ reply, exchanges ms <+: [.told (.hostStarted tasks.length true),
      .asked ⟨Cache.listingScript r.settings.cacheRoot, []⟩ reply] := by
  rw [plan_eq] at h
  rcases Script.goes_tell h with ⟨rfl, -, -⟩ | ⟨w₁, rest, rfl, -, ht⟩
  · exact ⟨.saying "", List.nil_prefix⟩
  rcases Script.goes_ask ht with ⟨rfl, -, -⟩ | ⟨reply, w₂, rest, rfl, -, ht'⟩
  · exact ⟨.saying "", List.prefix_append [_] _⟩
  · obtain ⟨rfl, -, -⟩ := Script.goes_done ht'
    exact ⟨reply, List.prefix_rfl⟩

/-- A dry run that comes to its end says what follows from the reply to its only script. -/
theorem goes_plan_done {result : Except RunError (List Plan)}
    (h : (r.plan tasks).Goes W w ms (.done result) w') :
    ∃ reply w₁, ms = [⟨.told (.hostStarted tasks.length true), w₁⟩,
        ⟨.asked ⟨Cache.listingScript r.settings.cacheRoot, []⟩ reply, w'⟩] ∧
      W w (.told (.hostStarted tasks.length true)) w₁ ∧
      W w₁ (.asked ⟨Cache.listingScript r.settings.cacheRoot, []⟩ reply) w' ∧
      result = r.forecast tasks reply := by
  rw [plan_eq] at h
  rcases Script.goes_tell h with ⟨-, he, -⟩ | ⟨w₁, rest, rfl, hw, ht⟩
  · cases he
  rcases Script.goes_ask ht with ⟨-, he, -⟩ | ⟨reply, w₂, rest, rfl, hw', ht'⟩
  · cases he
  · obtain ⟨rfl, he, rfl⟩ := Script.goes_done ht'
    exact ⟨reply, w₁, rfl, hw, hw', Script.done.inj he⟩

end Runner

end Provisioning
