import Provisioning.Proofs.Run.Phases

/-!
# The moves of a run

What a run does about commands and about the markers it finds, as seen from outside: a command is
skipped, the deletion of a marker is sent, or the script of a command is sent.  `moves` reads this
off what passes, and `Deed.moves` says what each deed has to show.  Nothing is assumed of the world.

* `goes_perform_moves` : a deed shows a part of its moves, and all of them if it is done;
* `goes_performAll_moves` : so do deeds in order;
* `moves_opening` : before the first deed there is no move.
-/

namespace Provisioning

/-- What a run does about a command or a marker. -/
inductive Move where
  /-- A command is skipped. -/
  | skip (task : String) (index : Nat) (sum : String)
  /-- The deletion of a marker of success is sent. -/
  | delete (path : String)
  /-- The script of a command is sent, right after it was told that it would be. -/
  | execute (task : String) (index : Nat) (sum : String) (call : Call)
  /-- A script is sent that neither was told of as a command nor keeps the books. -/
  | stray (call : Call)
deriving DecidableEq, Repr

instance (p : String) : Decidable (Files.IsListed p) :=
  inferInstanceAs (Decidable (Mark.success.ending <:+ p.toList))

/-- The markers of success that a script deletes. -/
def Shell.deletions (script : String) : List Move :=
  (effect script).filterMap fun
    | .remove p => if Files.IsListed p then some (.delete p) else none
    | .write _ => none

/-- How the scripts begin by which a run keeps its books. -/
def Shell.bookwords : List String := ["test -d ", "rm -f ", "printf '%s' "]

/-- Whether a script is one of the opening, or keeps the books. -/
def Runner.Knows (r : Runner) (script : String) : Prop :=
  script ∈ r.opening ∨ ∃ w ∈ Shell.bookwords, w.toList <+: script.toList

instance (r : Runner) (script : String) : Decidable (r.Knows script) :=
  inferInstanceAs (Decidable (_ ∨ _))

/-- The moves among what passes, in order. -/
def moves (r : Runner) : List Exchange → List Move
  | .told (.commandCached task index sum _) :: xs => .skip task index sum :: moves r xs
  | .told (.commandStarted task index sum _) :: .asked call _ :: xs =>
    .execute task index sum call :: moves r xs
  | .asked call _ :: xs =>
    Shell.deletions call.shell ++ (if r.Knows call.shell then [] else [.stray call]) ++ moves r xs
  | _ :: xs => moves r xs
  | [] => []

/-! ### What is no move -/

variable {r : Runner}

/-- Whether an exchange is no part of a move. -/
structure Exchange.Still (r : Runner) (x : Exchange) : Prop where
  /-- It says nothing about commands being skipped or sent. -/
  quiet : x.Quiet
  /-- It deletes no marker of success. -/
  spares : ∀ p, .remove p ∈ x.effect → ¬ Files.IsListed p
  /-- Its script, if it has one, is none of a command. -/
  known : ∀ call reply, x = .asked call reply → r.Knows call.shell

namespace Exchange.Still

theorem of_hushed {x : Exchange} (h : x.Hushed) : x.Still r := by
  obtain ⟨hquiet, heffect⟩ := h.harmless
  refine ⟨hquiet, by simp [heffect], ?_⟩
  rintro call reply rfl
  exact absurd h id

theorem told {what : Happening} (h : (Exchange.told what).Quiet) : (Exchange.told what).Still r :=
  of_hushed h

theorem asked {call : Call} {reply : Reply}
    (hspares : ∀ p, .remove p ∈ Shell.effect call.shell → ¬ Files.IsListed p)
    (hknown : r.Knows call.shell) : (Exchange.asked call reply).Still r := by
  refine ⟨trivial, hspares, fun call' reply' he => ?_⟩
  cases he
  exact hknown

/-- Before the first deed there is no move. -/
theorem of_opens {x : Exchange} (h : x.Opens r) : x.Still r := by
  obtain ⟨hquiet, heffect⟩ := h.harmless
  refine ⟨hquiet, by simp [heffect], ?_⟩
  rintro call reply rfl
  exact .inl h

end Exchange.Still

theorem moves_cons_still {x : Exchange} (h : x.Still r) (xs : List Exchange) :
    moves r (x :: xs) = moves r xs := by
  cases x with
  | asked call reply =>
    have hnone : Shell.deletions call.shell = [] := by
      rw [Shell.deletions, List.filterMap_eq_nil_iff]
      intro op hop
      cases op with
      | write p => rfl
      | remove p => exact if_neg (h.spares p hop)
    rw [moves, hnone, if_pos (h.known call reply rfl), List.nil_append, List.nil_append]
  | closed result => rfl
  | logged job result => rfl
  | told what =>
    have hquiet := h.quiet
    rw [moves]
    · rintro task index sum label he
      cases he
      exact hquiet
    · rintro task index sum label call reply rest he
      cases he
      exact absurd hquiet id
    · rintro call reply he
      cases he

theorem moves_append_still {xs : List Exchange} (h : ∀ x ∈ xs, x.Still r) (ys : List Exchange) :
    moves r (xs ++ ys) = moves r ys := by
  induction xs with
  | nil => rfl
  | cons x xs ih =>
    rw [List.forall_mem_cons] at h
    rw [List.cons_append, moves_cons_still h.1, ih h.2]

theorem moves_still {xs : List Exchange} (h : ∀ x ∈ xs, x.Still r) : moves r xs = [] := by
  simpa [moves] using moves_append_still h []

/-- What is told in the end, and is quiet, adds no move. -/
theorem moves_append_told {what : Happening} (hq : (Exchange.told what).Quiet)
    (xs : List Exchange) : moves r (xs ++ [.told what]) = moves r xs := by
  fun_induction moves r xs with
  | case1 t i s l xs ih => rw [List.cons_append, moves, ih]
  | case2 t i s l call reply xs ih => rw [List.cons_append, List.cons_append, moves, ih]
  | case3 call reply xs ih => rw [List.cons_append, moves, ih]
  | case4 x xs h₁ h₂ h₃ ih =>
    rw [List.cons_append, moves, ih]
    · exact h₁
    · -- what is told in the end could only have been a reply that is missing, and it is none
      intro t i s l call reply rest hx hxs
      cases xs with
      | nil => cases hxs
      | cons y ys => exact h₂ t i s l call reply ys hx (by rw [(List.cons.inj hxs).1])
    · exact h₃
  | case5 => exact moves_cons_still (.told hq) []

/-- Before the first deed there is no move. -/
theorem moves_opening {σ : Type} {ms : List (Moment σ)}
    (h : ∀ m ∈ ms, m.exchange.Opens r) : ∀ x ∈ exchanges ms, x.Still r := by
  intro x hx
  obtain ⟨m, hm, rfl⟩ := List.mem_map.1 hx
  exact .of_opens (h m hm)

/-! ### Moves of deeds -/

/-- The moves that a deed has to show. -/
def Deed.moves (r : Runner) : Deed → List Move
  | makeDir _ => []
  | skip t a => [.skip t a.index a.sum]
  | sweep t stale => stale.map fun s => .delete (Cache.donePath (r.dirOf t) s)
  | execute t a => [.execute t a.index a.sum ⟨r.wrap a.action.script, []⟩]

theorem deletions_deleteScript (t : String) (stale : List String) :
    Shell.deletions (Runner.deleteScript (r.dirOf t) stale) = (Deed.sweep t stale).moves r := by
  rw [Shell.deletions, effect_deleteScript, Deed.moves]
  induction stale with
  | nil => rfl
  | cons s ss ih =>
    have hlisted : Files.IsListed (Cache.donePath (r.dirOf t) s) := Files.isListed_success _ _
    simp [hlisted, ih]

/-! ### Scripts that keep the books -/

namespace Runner

variable (dir sum script : String)

theorem knows_makeDirScript : r.Knows (makeDirScript dir) :=
  .inr ⟨"test -d ", by simp [Shell.bookwords], by simp [makeDirScript]⟩

theorem knows_deleteScript (sums : List String) : r.Knows (deleteScript dir sums) :=
  .inr ⟨"rm -f ", by simp [Shell.bookwords], by simp [deleteScript]⟩

theorem knows_doneScript : r.Knows (doneScript dir sum script) :=
  .inr ⟨"printf '%s' ", by simp [Shell.bookwords], by simp [doneScript, recordScript]⟩

theorem knows_failedScript : r.Knows (failedScript dir sum script) :=
  .inr ⟨"printf '%s' ", by simp [Shell.bookwords], by simp [failedScript, recordScript]⟩

end Runner

/-! ### What each deed shows -/

/-- What the course of a deed shows, whether it was cut off, failed or came to a good end. -/
structure DeedMoves (r : Runner) (d : Deed) (xs : List Exchange)
    (s' : Script (Except RunError Unit)) : Prop where
  /-- It shows a part of its moves. -/
  part : moves r xs <+: d.moves r
  /-- It shows all of them if it is done, whatever comes after. -/
  done : ∀ u, s' = .done (.ok u) → ∀ ys, moves r (xs ++ ys) = d.moves r ++ moves r ys

variable {σ : Type} {W : σ → Exchange → σ → Prop} {w w' : σ} {ms : List (Moment σ)}
  {s' : Script (Except RunError Unit)}

theorem DeedMoves.none {d : Deed} (hne : ∀ u, s' ≠ .done (.ok u)) : DeedMoves r d [] s' where
  part := List.nil_prefix
  done u hu := absurd hu (hne u)

theorem DeedMoves.all {d : Deed} {xs : List Exchange}
    (h : ∀ ys, moves r (xs ++ ys) = d.moves r ++ moves r ys) : DeedMoves r d xs s' where
  part := by
    have hall := h []
    have hnil : moves r [] = [] := rfl
    rw [hnil, List.append_nil, List.append_nil] at hall
    rw [hall]
  done _ _ := h

theorem DeedMoves.makeDir {t : String}
    (h : (r.perform (.makeDir t)).run.Goes W w ms s' w') :
    DeedMoves r (.makeDir t) (exchanges ms) s' := by
  have hrun : (r.perform (.makeDir t)).run = .ask ⟨Runner.makeDirScript (r.dirOf t), []⟩
      fun reply => .done (bookkept t "create cache directory" reply) := run_bookkeep _ _ _
  rw [hrun] at h
  rcases Script.goes_ask h with ⟨rfl, rfl, rfl⟩ | ⟨reply, w₁, rest, rfl, -, ht⟩
  · exact .none fun u hu => by cases hu
  obtain ⟨rfl, -, -⟩ := Script.goes_done ht
  have hstill : (Exchange.asked ⟨Runner.makeDirScript (r.dirOf t), []⟩ reply).Still r :=
    .asked (by simp [effect_makeDirScript]) (Runner.knows_makeDirScript _)
  exact .all fun ys => moves_cons_still hstill ys

theorem DeedMoves.skip {t : String} {a : PlannedAction}
    (h : (r.perform (.skip t a)).run.Goes W w ms s' w') :
    DeedMoves r (.skip t a) (exchanges ms) s' := by
  have hrun : (r.perform (.skip t a)).run =
      .tell (.commandCached t a.index a.sum a.action.label) (.done (.ok ())) := rfl
  rw [hrun] at h
  rcases Script.goes_tell h with ⟨rfl, rfl, rfl⟩ | ⟨w₁, rest, rfl, -, ht⟩
  · exact .none fun u hu => by cases hu
  · obtain ⟨rfl, -, -⟩ := Script.goes_done ht
    exact .all fun ys => rfl

theorem DeedMoves.sweep {t : String} {stale : List String}
    (h : (r.perform (.sweep t stale)).run.Goes W w ms s' w') :
    DeedMoves r (.sweep t stale) (exchanges ms) s' := by
  cases stale with
  | nil =>
    -- nothing is stale, so nothing is sent
    obtain ⟨rfl, -, -⟩ := Script.goes_done (a := (.ok () : Except RunError Unit)) h
    exact .all fun ys => rfl
  | cons s ss =>
    rw [Runner.run_sweep] at h
    rcases Script.goes_ask h with ⟨rfl, rfl, rfl⟩ | ⟨reply, w₁, rest, rfl, -, ht⟩
    · -- cut off before the deletion was sent
      exact .none fun u hu => by cases hu
    -- once it is sent all is shown, and what is told of it adds nothing
    have hrest : ∀ x ∈ exchanges rest, x.Still r := by
      cases hb : bookkept t "delete stale markers" reply with
      | error e =>
        rw [hb] at ht
        obtain ⟨rfl, -, -⟩ := Script.goes_done ht
        simp
      | ok u =>
        rw [hb] at ht
        rcases Script.goes_tell ht with ⟨rfl, -, -⟩ | ⟨w₂, rest, rfl, -, ht'⟩
        · simp
        · obtain ⟨rfl, -, -⟩ := Script.goes_done ht'
          have htold : (Exchange.told (.cacheInvalidated t (s :: ss))).Still r := .told trivial
          simpa using htold
    have hmoves : ∀ ys, moves r (.asked ⟨Runner.deleteScript (r.dirOf t) (s :: ss), []⟩ reply ::
        (exchanges rest ++ ys)) = (Deed.sweep t (s :: ss)).moves r ++ moves r ys := by
      intro ys
      rw [moves, deletions_deleteScript, if_pos (Runner.knows_deleteScript _ _), List.append_nil,
        moves_append_still hrest]
    exact .all hmoves

theorem still_settle (t : String) (a : PlannedAction) (ending : Runner.Ending) :
    (Runner.settle t (r.dirOf t) a ending).run.Only (Exchange.Still r) := by
  have hq := Runner.quiet_finished t a ending
  rw [Runner.run_settle]
  cases Runner.verdict t a ending.exit with
  | ok u =>
    -- a marker of success is made, and at most one of failure deleted
    refine ⟨.told hq, fun reply => ⟨.asked ?_ (Runner.knows_doneScript _ _ _), trivial⟩⟩
    intro p hp
    rw [effect_doneScript] at hp
    simp only [List.mem_cons, List.not_mem_nil, or_false, reduceCtorEq, false_or,
      FileOp.remove.injEq] at hp
    rw [hp]
    exact Files.not_isListed_failure _ _
  | error e =>
    refine ⟨.told hq, fun reply => ⟨.asked ?_ (Runner.knows_failedScript _ _ _), trivial⟩⟩
    simp [effect_failedScript]

theorem DeedMoves.execute {t : String} {a : PlannedAction}
    (h : (r.perform (.execute t a)).run.Goes W w ms s' w') :
    DeedMoves r (.execute t a) (exchanges ms) s' := by
  rw [Runner.perform_execute, Runner.run_execute] at h
  rcases Script.goes_tell h with ⟨rfl, rfl, rfl⟩ | ⟨w₁, rest, rfl, -, ht⟩
  · -- cut off before the command was told of as started
    exact .none fun u hu => by cases hu
  rcases Script.goes_ask ht with ⟨rfl, rfl, rfl⟩ | ⟨reply, w₂, rest, rfl, -, ht'⟩
  · -- cut off before its script was sent, so that it does not show
    exact ⟨List.nil_prefix, fun u hu => by cases hu⟩
  have hrest : ∀ x ∈ exchanges rest, x.Still r := by
    intro x hx
    obtain ⟨m, hm, rfl⟩ := List.mem_map.1 hx
    -- what comes after the script only tells, logs and marks
    have haccount : (Runner.account t (r.dirOf t) a reply).Only (Exchange.Still r) :=
      (hushed_account _ _ _ _).mono fun x => .of_hushed
    exact ht'.forall_exchange (haccount.bind fun _ => still_settle _ _ _) m hm
  have hmoves : ∀ ys, moves r (.told (.commandStarted t a.index a.sum a.action.label) ::
      .asked ⟨r.wrap a.action.script, []⟩ reply :: (exchanges rest ++ ys)) =
        (Deed.execute t a).moves r ++ moves r ys := by
    intro ys
    rw [moves, moves_append_still hrest]
    rfl
  exact .all hmoves

/-- What every deed shows. -/
theorem goes_perform_moves {d : Deed} (h : (r.perform d).run.Goes W w ms s' w') :
    DeedMoves r d (exchanges ms) s' := by
  cases d with
  | makeDir t => exact .makeDir h
  | skip t a => exact .skip h
  | sweep t stale => exact .sweep h
  | execute t a => exact .execute h

/-- Deeds in order show a first part of their moves, and all of them if all are done. -/
theorem goes_performAll_moves {ds : List Deed}
    (h : (r.performAll ds).run.Goes W w ms s' w') :
    moves r (exchanges ms) <+: ds.flatMap (Deed.moves r) ∧
      ∀ u, s' = .done (.ok u) → moves r (exchanges ms) = ds.flatMap (Deed.moves r) := by
  induction ds generalizing w ms with
  | nil =>
    obtain ⟨rfl, -, -⟩ := Script.goes_done (a := (.ok () : Except RunError Unit)) h
    exact ⟨List.prefix_rfl, fun _ _ => rfl⟩
  | cons d ds ih =>
    rw [Runner.performAll, ExceptT.run_bind] at h
    rw [List.flatMap_cons]
    rcases Script.goes_bind h with ⟨s₁, h₁, rfl, hne⟩ | ⟨res, w₁, ms₁, ms₂, rfl, h₁, h₂⟩
    · -- cut off during the first deed
      exact ⟨(goes_perform_moves h₁).part.trans (List.prefix_append _ _),
        fun u hu => absurd hu (hne _)⟩
    · cases res with
      | error e =>
        -- the first deed failed, and no other is begun
        obtain ⟨rfl, rfl, rfl⟩ := Script.goes_done (a := (.error e : Except RunError Unit)) h₂
        rw [List.append_nil]
        exact ⟨(goes_perform_moves h₁).part.trans (List.prefix_append _ _), fun u hu => by cases hu⟩
      | ok u =>
        obtain ⟨hpart, hall⟩ := ih h₂
        rw [exchanges_append, (goes_perform_moves h₁).done u rfl]
        exact ⟨(List.prefix_append_right_inj _).2 hpart, fun v hv => by rw [hall v hv]⟩

end Provisioning
