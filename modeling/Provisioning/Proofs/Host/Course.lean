import Provisioning.Host.Script

/-!
# The course of a script

`Script.runWith` answers a script in a monad.  Here a script is followed from outside: every
exchange with its surroundings is written down, together with the state of the world after it.
The world is a relation that says which outcome an exchange may have; a course may stop anywhere,
because the work may be cut off anywhere.

* `Script.Goes.append_inv` : a course can be stopped at every moment and taken up again;
* `Script.goes_bind` : the course of one script after another is one course after another;
* `Script.Goes.stays` : a course of exchanges none of which changes the state does not change it;
* `Script.exists_goes` : where every exchange has an outcome, every script comes to its end;
* `Script.Yields` : all that passes up to the end, in whatever world.
-/

namespace Provisioning

/-- What passes between a script and its surroundings. -/
inductive Exchange where
  /-- A script was run, and this came of it. -/
  | asked (call : Call) (reply : Reply)
  /-- Open sessions were closed. -/
  | closed (result : Except TransportError Unit)
  /-- Something was told. -/
  | told (what : Happening)
  /-- A log was written, or not. -/
  | logged (job : LogJob) (result : Except LogError Unit)

/-- An exchange and the state of the world after it. -/
structure Moment (σ : Type) where
  /-- What passed. -/
  exchange : Exchange
  /-- The state after it. -/
  after : σ

namespace Script

variable {σ α β : Type}

/-- A script goes on by one exchange. -/
inductive Step : Script α → Exchange → Script α → Prop
  | ask (call : Call) (next : Reply → Script α) (reply : Reply) :
      Step (.ask call next) (.asked call reply) (next reply)
  | reset (next : Except TransportError Unit → Script α) (result : Except TransportError Unit) :
      Step (.reset next) (.closed result) (next result)
  | tell (what : Happening) (next : Script α) : Step (.tell what next) (.told what) next
  | log (job : LogJob) (next : Except LogError Unit → Script α) (result : Except LogError Unit) :
      Step (.log job next) (.logged job result) (next result)

variable (W : σ → Exchange → σ → Prop)

/-- `Goes W s w ms s' w'`: in a world that allows the exchanges `W`, script `s` begins in state
`w`, passes the moments `ms` and stands before `s'` in state `w'`. -/
inductive Goes : Script α → σ → List (Moment σ) → Script α → σ → Prop
  | rest (s : Script α) (w : σ) : Goes s w [] s w
  | next {s s' s'' : Script α} {w w' w'' : σ} {x : Exchange} {ms : List (Moment σ)} :
      Step s x s' → W w x w' → Goes s' w' ms s'' w'' → Goes s w (⟨x, w'⟩ :: ms) s'' w''

variable {W}

/-! ### Courses of given scripts -/

theorem goes_done {a : α} {w : σ} {ms : List (Moment σ)} {s' : Script α} {w' : σ}
    (h : Goes W (.done a) w ms s' w') : ms = [] ∧ s' = .done a ∧ w' = w := by
  cases h with
  | rest => exact ⟨rfl, rfl, rfl⟩
  | next hs => cases hs

theorem goes_ask {call : Call} {next : Reply → Script α} {w : σ} {ms : List (Moment σ)}
    {s' : Script α} {w' : σ} (h : Goes W (.ask call next) w ms s' w') :
    (ms = [] ∧ s' = .ask call next ∧ w' = w) ∨
      ∃ reply w₁ rest, ms = ⟨.asked call reply, w₁⟩ :: rest ∧ W w (.asked call reply) w₁ ∧
        Goes W (next reply) w₁ rest s' w' := by
  cases h with
  | rest => exact .inl ⟨rfl, rfl, rfl⟩
  | next hs hw ht =>
    cases hs
    exact .inr ⟨_, _, _, rfl, hw, ht⟩

theorem goes_reset {next : Except TransportError Unit → Script α} {w : σ}
    {ms : List (Moment σ)} {s' : Script α} {w' : σ} (h : Goes W (.reset next) w ms s' w') :
    (ms = [] ∧ s' = .reset next ∧ w' = w) ∨
      ∃ result w₁ rest, ms = ⟨.closed result, w₁⟩ :: rest ∧ W w (.closed result) w₁ ∧
        Goes W (next result) w₁ rest s' w' := by
  cases h with
  | rest => exact .inl ⟨rfl, rfl, rfl⟩
  | next hs hw ht =>
    cases hs
    exact .inr ⟨_, _, _, rfl, hw, ht⟩

theorem goes_tell {what : Happening} {next : Script α} {w : σ} {ms : List (Moment σ)}
    {s' : Script α} {w' : σ} (h : Goes W (.tell what next) w ms s' w') :
    (ms = [] ∧ s' = .tell what next ∧ w' = w) ∨
      ∃ w₁ rest, ms = ⟨.told what, w₁⟩ :: rest ∧ W w (.told what) w₁ ∧
        Goes W next w₁ rest s' w' := by
  cases h with
  | rest => exact .inl ⟨rfl, rfl, rfl⟩
  | next hs hw ht =>
    cases hs
    exact .inr ⟨_, _, rfl, hw, ht⟩

theorem goes_log {job : LogJob} {next : Except LogError Unit → Script α} {w : σ}
    {ms : List (Moment σ)} {s' : Script α} {w' : σ} (h : Goes W (.log job next) w ms s' w') :
    (ms = [] ∧ s' = .log job next ∧ w' = w) ∨
      ∃ result w₁ rest, ms = ⟨.logged job result, w₁⟩ :: rest ∧ W w (.logged job result) w₁ ∧
        Goes W (next result) w₁ rest s' w' := by
  cases h with
  | rest => exact .inl ⟨rfl, rfl, rfl⟩
  | next hs hw ht =>
    cases hs
    exact .inr ⟨_, _, _, rfl, hw, ht⟩

/-! ### Courses in parts -/

/-- A course can be stopped at every moment and taken up again. -/
theorem Goes.append_inv {s s' : Script α} {w w' : σ} {ms ms' : List (Moment σ)}
    (h : Goes W s w (ms ++ ms') s' w') :
    ∃ s₁ w₁, Goes W s w ms s₁ w₁ ∧ Goes W s₁ w₁ ms' s' w' := by
  induction ms generalizing s w with
  | nil => exact ⟨s, w, .rest s w, h⟩
  | cons m ms ih =>
    cases h with
    | next hs hw ht =>
      obtain ⟨s₁, w₁, h₁, h₂⟩ := ih ht
      exact ⟨s₁, w₁, .next hs hw h₁, h₂⟩

/-- The state at the end of a course is the one after its last moment. -/
theorem Goes.after_eq {s s' : Script α} {w w' : σ} {ms : List (Moment σ)} {m : Moment σ}
    (h : Goes W s w (ms ++ [m]) s' w') : m.after = w' := by
  obtain ⟨s₁, w₁, -, h₂⟩ := h.append_inv
  cases h₂ with
  | next hs hw ht =>
    cases ht with
    | rest => rfl

/-- A course up to and with one of its moments is a course. -/
theorem Goes.upto {s s' : Script α} {w w' : σ} {ms ms' : List (Moment σ)} {m : Moment σ}
    (h : Goes W s w (ms ++ m :: ms') s' w') : ∃ s₁, Goes W s w (ms ++ [m]) s₁ m.after := by
  rw [List.append_cons] at h
  obtain ⟨s₁, w₁, h₁, -⟩ := h.append_inv
  exact ⟨s₁, h₁.after_eq ▸ h₁⟩

/-- What holds at the end of every course of a script holds at every moment of one. -/
theorem Goes.forall_mem {s s' : Script α} {w w' : σ} {ms : List (Moment σ)} {P : σ → Prop}
    (h : Goes W s w ms s' w') (hP : ∀ ms₁ s₁ w₁, Goes W s w ms₁ s₁ w₁ → P w₁) :
    ∀ m ∈ ms, P m.after := by
  intro m hm
  obtain ⟨before, rest, rfl⟩ := List.append_of_mem hm
  obtain ⟨s₁, h₁⟩ := h.upto
  exact hP _ _ _ h₁

/-- What every exchange keeps is kept by every course. -/
theorem Goes.invariant {s s' : Script α} {w w' : σ} {ms : List (Moment σ)} {P : σ → Prop}
    (h : Goes W s w ms s' w') (hP : ∀ {w x w'}, W w x w' → P w → P w') (hw : P w) : P w' := by
  induction h with
  | rest => exact hw
  | next _ hstep _ ih => exact ih (hP hstep hw)

/-- A course is one in every world that allows more. -/
theorem Goes.mono {W' : σ → Exchange → σ → Prop} {s s' : Script α} {w w' : σ}
    {ms : List (Moment σ)} (h : Goes W s w ms s' w')
    (himp : ∀ {w x w'}, W w x w' → W' w x w') : Goes W' s w ms s' w' := by
  induction h with
  | rest => exact .rest _ _
  | next hs hw _ ih => exact .next hs (himp hw) ih

/-! ### One script after another -/

instance : LawfulMonad Script := LawfulMonad.mk' Script
  (fun s => by
    show s.bind .done = s
    induction s with
    | done => rfl
    | ask call next ih => simp only [bind, ih]
    | reset next ih => simp only [bind, ih]
    | tell what next ih => simp only [bind, ih]
    | log job next ih => simp only [bind, ih])
  (fun _ _ => rfl)
  (fun s f g => by
    show (s.bind f).bind g = s.bind fun a => (f a).bind g
    induction s with
    | done => rfl
    | ask call next ih => simp only [bind, ih]
    | reset next ih => simp only [bind, ih]
    | tell what next ih => simp only [bind, ih]
    | log job next ih => simp only [bind, ih])

theorem Step.bind {s s' : Script α} {x : Exchange} (h : Step s x s') (f : α → Script β) :
    Step (s.bind f) x (s'.bind f) := by
  cases h <;> constructor

/-- The course of one script after another: either the first is under way, or it came to its end
and the second is under way or at its end. -/
theorem goes_bind {s : Script α} {f : α → Script β} {w : σ} {ms : List (Moment σ)}
    {s' : Script β} {w' : σ} (h : Goes W (s >>= f) w ms s' w') :
    (∃ t, Goes W s w ms t w' ∧ s' = t >>= f ∧ ∀ b, s' ≠ .done b) ∨
      ∃ a w₁ ms₁ ms₂, ms = ms₁ ++ ms₂ ∧ Goes W s w ms₁ (.done a) w₁ ∧
        Goes W (f a) w₁ ms₂ s' w' := by
  induction s generalizing w ms with
  | done a => exact .inr ⟨a, w, [], ms, rfl, .rest _ _, h⟩
  -- the first exchange belongs to the first script; what follows is split by induction
  | ask call next ih =>
    rcases goes_ask h with ⟨rfl, rfl, rfl⟩ | ⟨reply, w₁, rest, rfl, hw, ht⟩
    · exact .inl ⟨_, .rest _ _, rfl, fun b hb => by cases hb⟩
    · rcases ih reply ht with ⟨t, h₁, rfl, hne⟩ | ⟨a, w₂, ms₁, ms₂, rfl, h₁, h₂⟩
      · exact .inl ⟨t, .next (.ask call next reply) hw h₁, rfl, hne⟩
      · exact .inr ⟨a, w₂, _ :: ms₁, ms₂, rfl, .next (.ask call next reply) hw h₁, h₂⟩
  | reset next ih =>
    rcases goes_reset h with ⟨rfl, rfl, rfl⟩ | ⟨result, w₁, rest, rfl, hw, ht⟩
    · exact .inl ⟨_, .rest _ _, rfl, fun b hb => by cases hb⟩
    · rcases ih result ht with ⟨t, h₁, rfl, hne⟩ | ⟨a, w₂, ms₁, ms₂, rfl, h₁, h₂⟩
      · exact .inl ⟨t, .next (.reset next result) hw h₁, rfl, hne⟩
      · exact .inr ⟨a, w₂, _ :: ms₁, ms₂, rfl, .next (.reset next result) hw h₁, h₂⟩
  | tell what next ih =>
    rcases goes_tell h with ⟨rfl, rfl, rfl⟩ | ⟨w₁, rest, rfl, hw, ht⟩
    · exact .inl ⟨_, .rest _ _, rfl, fun b hb => by cases hb⟩
    · rcases ih ht with ⟨t, h₁, rfl, hne⟩ | ⟨a, w₂, ms₁, ms₂, rfl, h₁, h₂⟩
      · exact .inl ⟨t, .next (.tell what next) hw h₁, rfl, hne⟩
      · exact .inr ⟨a, w₂, _ :: ms₁, ms₂, rfl, .next (.tell what next) hw h₁, h₂⟩
  | log job next ih =>
    rcases goes_log h with ⟨rfl, rfl, rfl⟩ | ⟨result, w₁, rest, rfl, hw, ht⟩
    · exact .inl ⟨_, .rest _ _, rfl, fun b hb => by cases hb⟩
    · rcases ih result ht with ⟨t, h₁, rfl, hne⟩ | ⟨a, w₂, ms₁, ms₂, rfl, h₁, h₂⟩
      · exact .inl ⟨t, .next (.log job next result) hw h₁, rfl, hne⟩
      · exact .inr ⟨a, w₂, _ :: ms₁, ms₂, rfl, .next (.log job next result) hw h₁, h₂⟩

/-- One script after another comes to its end only if both do. -/
theorem goes_bind_done {s : Script α} {f : α → Script β} {w : σ} {ms : List (Moment σ)}
    {b : β} {w' : σ} (h : Goes W (s >>= f) w ms (.done b) w') :
    ∃ a w₁ ms₁ ms₂, ms = ms₁ ++ ms₂ ∧ Goes W s w ms₁ (.done a) w₁ ∧
      Goes W (f a) w₁ ms₂ (.done b) w' := by
  rcases goes_bind h with ⟨t, -, -, hne⟩ | h
  · exact absurd rfl (hne b)
  · exact h

theorem Goes.bind {s s' : Script α} {w w' : σ} {ms : List (Moment σ)} (h : Goes W s w ms s' w')
    (f : α → Script β) : Goes W (s >>= f) w ms (s' >>= f) w' := by
  induction h with
  | rest => exact .rest _ _
  | next hs hw _ ih => exact .next (hs.bind f) hw ih

theorem Goes.map {s s' : Script α} {w w' : σ} {ms : List (Moment σ)} (h : Goes W s w ms s' w')
    (f : α → β) : Goes W (f <$> s) w ms (f <$> s') w' := by
  rw [← bind_pure_comp, ← bind_pure_comp]
  exact h.bind _

/-! ### Exchanges of one kind -/

/-- Whether nothing passes between a script and its surroundings but what `P` allows. -/
def Only (P : Exchange → Prop) : Script α → Prop
  | done _ => True
  | ask call next => ∀ reply, P (.asked call reply) ∧ (next reply).Only P
  | reset next => ∀ result, P (.closed result) ∧ (next result).Only P
  | tell what next => P (.told what) ∧ next.Only P
  | log job next => ∀ result, P (.logged job result) ∧ (next result).Only P

variable {P : Exchange → Prop}

theorem Only.mono {P' : Exchange → Prop} {s : Script α} (hs : s.Only P)
    (himp : ∀ x, P x → P' x) : s.Only P' := by
  induction s with
  | done a => trivial
  | ask call next ih => exact fun reply => (hs reply).imp (himp _) (ih reply)
  | reset next ih => exact fun result => (hs result).imp (himp _) (ih result)
  | tell what next ih => exact hs.imp (himp _) ih
  | log job next ih => exact fun result => (hs result).imp (himp _) (ih result)

theorem Only.bind {s : Script α} {f : α → Script β} (hs : s.Only P) (hf : ∀ a, (f a).Only P) :
    (s >>= f).Only P := by
  induction s with
  | done a => exact hf a
  | ask call next ih =>
    intro reply
    exact ⟨(hs reply).1, ih reply (hs reply).2⟩
  | reset next ih =>
    intro result
    exact ⟨(hs result).1, ih result (hs result).2⟩
  | tell what next ih => exact ⟨hs.1, ih hs.2⟩
  | log job next ih =>
    intro result
    exact ⟨(hs result).1, ih result (hs result).2⟩

/-- A script that is run for its output, and what is done with the output. -/
theorem only_capture {shell : String} {k : Except TransportError Output → Talk α}
    (hs : ∀ reply, P (.asked ⟨shell, []⟩ reply)) (hk : ∀ output, (ofTalk (k output)).Only P) :
    (ofTalk (capture shell >>= k)).Only P :=
  fun reply => ⟨hs reply, hk reply.output⟩

theorem Only.of_step {s s' : Script α} {x : Exchange} (hs : s.Only P) (h : Step s x s') :
    P x ∧ s'.Only P := by
  cases h with
  | ask call next reply => exact hs reply
  | reset next result => exact hs result
  | tell what next => exact hs
  | log job next result => exact hs result

/-- In the course of a script nothing passes but what it allows. -/
theorem Goes.forall_exchange {s s' : Script α} {w w' : σ} {ms : List (Moment σ)}
    (h : Goes W s w ms s' w') (hs : s.Only P) : ∀ m ∈ ms, P m.exchange := by
  induction h with
  | rest => simp
  | next hstep _ _ ih =>
    obtain ⟨hx, hs'⟩ := hs.of_step hstep
    rw [List.forall_mem_cons]
    exact ⟨hx, ih hs'⟩

/-- What each exchange of a course keeps is kept by the course. -/
theorem Goes.keeps {s s' : Script α} {w w' : σ} {ms : List (Moment σ)} {Q : σ → Prop}
    (h : Goes W s w ms s' w') (hms : ∀ m ∈ ms, ∀ v v', W v m.exchange v' → Q v → Q v')
    (hw : Q w) : Q w' := by
  induction h with
  | rest => exact hw
  | next _ hstep _ ih =>
    rw [List.forall_mem_cons] at hms
    exact ih hms.2 (hms.1 _ _ hstep hw)

/-- A course stays in its state if none of its exchanges leads out of one. -/
theorem Goes.stays {s s' : Script α} {w w' : σ} {ms : List (Moment σ)} (h : Goes W s w ms s' w')
    (hms : ∀ m ∈ ms, ∀ v v', W v m.exchange v' → v' = v) :
    w' = w ∧ ∀ m ∈ ms, m.after = w := by
  induction h with
  | rest => exact ⟨rfl, by simp⟩
  | next _ hw _ ih =>
    rw [List.forall_mem_cons] at hms
    obtain rfl := hms.1 _ _ hw
    obtain ⟨hend, hmoments⟩ := ih hms.2
    exact ⟨hend, List.forall_mem_cons.2 ⟨rfl, hmoments⟩⟩

/-! ### Coming to an end -/

/-- Where every exchange has an outcome that leads to good states again, every script comes to
its end, with none but good exchanges. -/
theorem exists_goes (Good : σ → Prop) (Fine : Exchange → Prop)
    (hask : ∀ w call, Good w → ∃ reply w', W w (.asked call reply) w' ∧ Good w' ∧
      Fine (.asked call reply))
    (hreset : ∀ w, Good w → ∃ result w', W w (.closed result) w' ∧ Good w' ∧
      Fine (.closed result))
    (htell : ∀ w what, Good w → ∃ w', W w (.told what) w' ∧ Good w' ∧ Fine (.told what))
    (hlog : ∀ w job, Good w → ∃ result w', W w (.logged job result) w' ∧ Good w' ∧
      Fine (.logged job result))
    (s : Script α) {w : σ} (hw : Good w) :
    ∃ ms a w', Goes W s w ms (.done a) w' ∧ ∀ m ∈ ms, Fine m.exchange := by
  induction s generalizing w with
  | done a => exact ⟨[], a, w, .rest _ _, by simp⟩
  | ask call next ih =>
    obtain ⟨reply, w₁, hW, hg, hf⟩ := hask w call hw
    obtain ⟨ms, a, w', h, hms⟩ := ih reply hg
    exact ⟨_ :: ms, a, w', .next (.ask call next reply) hW h, by simpa [hf] using hms⟩
  | reset next ih =>
    obtain ⟨result, w₁, hW, hg, hf⟩ := hreset w hw
    obtain ⟨ms, a, w', h, hms⟩ := ih result hg
    exact ⟨_ :: ms, a, w', .next (.reset next result) hW h, by simpa [hf] using hms⟩
  | tell what next ih =>
    obtain ⟨w₁, hW, hg, hf⟩ := htell w what hw
    obtain ⟨ms, a, w', h, hms⟩ := ih hg
    exact ⟨_ :: ms, a, w', .next (.tell what next) hW h, by simpa [hf] using hms⟩
  | log job next ih =>
    obtain ⟨result, w₁, hW, hg, hf⟩ := hlog w job hw
    obtain ⟨ms, a, w', h, hms⟩ := ih result hg
    exact ⟨_ :: ms, a, w', .next (.log job next result) hW h, by simpa [hf] using hms⟩

/-! ### All that passes up to the end -/

/-- All that passes between a script and its surroundings up to the end, and the result.  The states
of a world are left out. -/
inductive Yields : Script α → List Exchange → α → Prop
  | done (a : α) : Yields (.done a) [] a
  | next {s s' : Script α} {x : Exchange} {xs : List Exchange} {a : α} :
      Step s x s' → Yields s' xs a → Yields s (x :: xs) a

/-- Of a course that comes to the end. -/
theorem Goes.yields {s : Script α} {w w' : σ} {ms : List (Moment σ)} {a : α}
    (h : Goes W s w ms (.done a) w') : Yields s (ms.map Moment.exchange) a := by
  generalize hend : Script.done a = s' at h
  induction h with
  | rest =>
    subst hend
    exact .done a
  | next hs _ _ ih => exact .next hs (ih hend)

/-- All this can pass in a world that allows it in some state and stays in that state. -/
theorem Yields.goes {s : Script α} {xs : List Exchange} {a : α} {w : σ} (h : Yields s xs a)
    (hW : ∀ x ∈ xs, W w x w) : Goes W s w (xs.map fun x => ⟨x, w⟩) (.done a) w := by
  induction h with
  | done a => exact .rest _ _
  | next hs _ ih =>
    rw [List.forall_mem_cons] at hW
    exact .next hs hW.1 (ih hW.2)

variable {xs : List Exchange} {a b : α}

@[simp] theorem yields_done : Yields (.done a) xs b ↔ xs = [] ∧ b = a := by
  constructor
  · intro h
    cases h with
    | done => exact ⟨rfl, rfl⟩
    | next hs => cases hs
  · rintro ⟨rfl, rfl⟩
    exact .done b

@[simp] theorem yields_ask {call : Call} {next : Reply → Script α} :
    Yields (.ask call next) xs a ↔
      ∃ reply ys, xs = .asked call reply :: ys ∧ Yields (next reply) ys a := by
  constructor
  · intro h
    cases h with
    | next hs h =>
      cases hs
      exact ⟨_, _, rfl, h⟩
  · rintro ⟨reply, ys, rfl, h⟩
    exact .next (.ask call next reply) h

@[simp] theorem yields_reset {next : Except TransportError Unit → Script α} :
    Yields (.reset next) xs a ↔
      ∃ result ys, xs = .closed result :: ys ∧ Yields (next result) ys a := by
  constructor
  · intro h
    cases h with
    | next hs h =>
      cases hs
      exact ⟨_, _, rfl, h⟩
  · rintro ⟨result, ys, rfl, h⟩
    exact .next (.reset next result) h

@[simp] theorem yields_tell {what : Happening} {next : Script α} :
    Yields (.tell what next) xs a ↔ ∃ ys, xs = .told what :: ys ∧ Yields next ys a := by
  constructor
  · intro h
    cases h with
    | next hs h =>
      cases hs
      exact ⟨_, rfl, h⟩
  · rintro ⟨ys, rfl, h⟩
    exact .next (.tell what next) h

@[simp] theorem yields_log {job : LogJob} {next : Except LogError Unit → Script α} :
    Yields (.log job next) xs a ↔
      ∃ result ys, xs = .logged job result :: ys ∧ Yields (next result) ys a := by
  constructor
  · intro h
    cases h with
    | next hs h =>
      cases hs
      exact ⟨_, _, rfl, h⟩
  · rintro ⟨result, ys, rfl, h⟩
    exact .next (.log job next result) h

/-- What passes for one script after another. -/
theorem yields_bind {s : Script α} {f : α → Script β} {c : β} :
    Yields (s >>= f) xs c ↔
      ∃ a ys zs, xs = ys ++ zs ∧ Yields s ys a ∧ Yields (f a) zs c := by
  constructor
  · intro h
    induction s generalizing xs with
    | done a => exact ⟨a, [], xs, rfl, .done a, h⟩
    | ask call next ih =>
      obtain ⟨reply, xs, rfl, ht⟩ := yields_ask.1 h
      obtain ⟨a, ys, zs, rfl, h₁, h₂⟩ := ih reply ht
      exact ⟨a, _ :: ys, zs, rfl, .next (.ask call next reply) h₁, h₂⟩
    | reset next ih =>
      obtain ⟨result, xs, rfl, ht⟩ := yields_reset.1 h
      obtain ⟨a, ys, zs, rfl, h₁, h₂⟩ := ih result ht
      exact ⟨a, _ :: ys, zs, rfl, .next (.reset next result) h₁, h₂⟩
    | tell what next ih =>
      obtain ⟨xs, rfl, ht⟩ := yields_tell.1 h
      obtain ⟨a, ys, zs, rfl, h₁, h₂⟩ := ih ht
      exact ⟨a, _ :: ys, zs, rfl, .next (.tell what next) h₁, h₂⟩
    | log job next ih =>
      obtain ⟨result, xs, rfl, ht⟩ := yields_log.1 h
      obtain ⟨a, ys, zs, rfl, h₁, h₂⟩ := ih result ht
      exact ⟨a, _ :: ys, zs, rfl, .next (.log job next result) h₁, h₂⟩
  · rintro ⟨a, ys, zs, rfl, h₁, h₂⟩
    induction h₁ with
    | done a => exact h₂
    | next hs _ ih => exact .next (hs.bind f) (ih h₂)

end Script

end Provisioning
