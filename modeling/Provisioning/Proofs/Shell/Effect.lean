import Mathlib.Data.Set.Insert
import Provisioning.Proofs.Shell.Token

/-!
# What a script does to files

The files of a host are known by their paths.  `Shell.effect` reads off a script which files its
commands make and delete: `rm -f` deletes the files it names, a command with `>` makes the file its
output goes to, and every other command leaves files alone.  No more is needed for the scripts by
which a run keeps its books.

* `Files.mem_after_of_forall_ne`, `Files.mem_after_of_not_remove_mem` : what is left after some
  operations;
* `Files.after_comm`, `Files.after_flatMap_perm` : operations on different files commute;
* `Shell.commandEffect_words` : a command without a redirection does nothing, unless it is `rm`.
-/

namespace Provisioning

/-- What is done to one file. -/
inductive FileOp where
  /-- It is made, or its content replaced. -/
  | write (path : String)
  /-- It is deleted, if it is there. -/
  | remove (path : String)
deriving DecidableEq, Repr

/-- The file concerned. -/
def FileOp.path : FileOp → String
  | write p | remove p => p

/-- The files that a host has, by their paths. -/
abbrev Files := Set String

namespace Files

/-- The files after one operation. -/
def afterOp (fs : Files) : FileOp → Files
  | .write p => insert p fs
  | .remove p => fs \ {p}

/-- The files after some operations, one after another. -/
def after (fs : Files) (ops : List FileOp) : Files := ops.foldl afterOp fs

@[simp] theorem after_nil (fs : Files) : fs.after [] = fs := rfl

@[simp] theorem after_cons (fs : Files) (op : FileOp) (ops : List FileOp) :
    fs.after (op :: ops) = (fs.afterOp op).after ops := rfl

theorem after_append (fs : Files) (a b : List FileOp) :
    fs.after (a ++ b) = (fs.after a).after b := List.foldl_append

@[simp] theorem mem_afterOp_write {fs : Files} {p q : String} :
    q ∈ fs.afterOp (.write p) ↔ q = p ∨ q ∈ fs := Iff.rfl

@[simp] theorem mem_afterOp_remove {fs : Files} {p q : String} :
    q ∈ fs.afterOp (.remove p) ↔ q ∈ fs ∧ q ≠ p := Iff.rfl

/-- A file that no operation concerns stays as it is. -/
theorem mem_after_of_forall_ne {fs : Files} {ops : List FileOp} {p : String}
    (h : ∀ op ∈ ops, op.path ≠ p) : p ∈ fs.after ops ↔ p ∈ fs := by
  induction ops generalizing fs with
  | nil => exact Iff.rfl
  | cons op ops ih =>
    rw [after_cons, ih fun op' h' => h op' (List.mem_cons_of_mem _ h')]
    have hne := h op List.mem_cons_self
    cases op with
    | write q => exact ⟨fun hp => hp.resolve_left hne.symm, .inr⟩
    | remove q => exact ⟨And.left, fun hp => ⟨hp, hne.symm⟩⟩

/-- A file is there only if it was before or was made. -/
theorem mem_or_write_mem_of_mem_after {fs : Files} {ops : List FileOp} {p : String}
    (h : p ∈ fs.after ops) : p ∈ fs ∨ .write p ∈ ops := by
  induction ops generalizing fs with
  | nil => exact .inl h
  | cons op ops ih =>
    rcases ih h with h | h
    · cases op with
      | write q => exact h.elim (fun hp => .inr (hp ▸ List.mem_cons_self)) .inl
      | remove q => exact .inl h.1
    · exact .inr (List.mem_cons_of_mem _ h)

/-- A file that was there is left unless it was deleted. -/
theorem mem_after_of_not_remove_mem {fs : Files} {ops : List FileOp} {p : String} (hp : p ∈ fs)
    (h : .remove p ∉ ops) : p ∈ fs.after ops := by
  induction ops generalizing fs with
  | nil => exact hp
  | cons op ops ih =>
    rw [List.mem_cons, not_or] at h
    refine ih ?_ h.2
    cases op with
    | write q => exact .inr hp
    | remove q => exact ⟨hp, fun he => h.1 (by rw [he])⟩

/-! #### Operations on other files -/

/-- What becomes of a file depends on nothing but whether that file was there. -/
theorem mem_after_congr {fs fs' : Files} {p : String} (h : p ∈ fs ↔ p ∈ fs') (ops : List FileOp) :
    p ∈ fs.after ops ↔ p ∈ fs'.after ops := by
  induction ops generalizing fs fs' with
  | nil => exact h
  | cons op ops ih =>
    refine ih ?_
    cases op with
    | write q => rw [mem_afterOp_write, mem_afterOp_write, h]
    | remove q => rw [mem_afterOp_remove, mem_afterOp_remove, h]

/-- Operations on some files and operations on others may be done in any order. -/
theorem after_comm {a b : List FileOp} (h : ∀ op ∈ a, ∀ op' ∈ b, op.path ≠ op'.path)
    (fs : Files) : (fs.after a).after b = (fs.after b).after a := by
  ext p
  by_cases ha : ∃ op ∈ a, op.path = p
  · -- the file is none that `b` concerns
    obtain ⟨op, hop, rfl⟩ := ha
    have hb : ∀ op' ∈ b, op'.path ≠ op.path := fun op' hop' => (h op hop op' hop').symm
    rw [mem_after_of_forall_ne hb]
    exact mem_after_congr (mem_after_of_forall_ne hb).symm a
  · -- the file is none that `a` concerns
    have hna : ∀ op ∈ a, op.path ≠ p := by
      intro op hop he
      exact ha ⟨op, hop, he⟩
    rw [mem_after_of_forall_ne hna]
    exact mem_after_congr (mem_after_of_forall_ne hna) b

/-- Groups of operations each of which concerns files of its own may be done in any order. -/
theorem after_flatMap_perm {α : Type} {f : α → List FileOp} {xs ys : List α} (h : xs.Perm ys)
    (hne : ∀ x ∈ xs, ∀ y ∈ xs, x ≠ y → ∀ op ∈ f x, ∀ op' ∈ f y, op.path ≠ op'.path)
    (fs : Files) : fs.after (xs.flatMap f) = fs.after (ys.flatMap f) := by
  have hfold : ∀ zs : List α, fs.after (zs.flatMap f) =
      zs.foldl (fun fs z => fs.after (f z)) fs := fun zs => List.foldl_flatMap
  rw [hfold, hfold]
  refine h.foldl_eq' (fun x hx y hy fs => ?_) fs
  by_cases he : x = y
  · rw [he]
  · exact after_comm (hne x hx y hy he) fs

end Files

/-! ### Effects of scripts -/

namespace Shell

/-- Whether a token ends a command.  Redirections do not. -/
def Token.ends : Token → Bool
  | .word _ => false
  | .operator o => o != ['>'] && o != ['<']

/-- The commands among some tokens. -/
def commands : List Token → List (List Token)
  | [] => [[]]
  | t :: ts =>
    if t.ends then [] :: commands ts
    else
      match commands ts with
      | [] => [[t]]
      | c :: cs => (t :: c) :: cs

/-- The files to which a command's output goes. -/
def redirections : List Token → List FileOp
  | .operator ['>'] :: .word p :: ts => .write (String.ofList p) :: redirections ts
  | _ :: ts => redirections ts
  | [] => []

/-- The file that an operand of `rm` names. -/
def removal? : Token → Option FileOp
  | .word p => some (.remove (String.ofList p))
  | .operator _ => none

/-- What a command does to files. -/
def commandEffect : List Token → List FileOp
  | .word ['r', 'm'] :: .word ['-', 'f'] :: ts => ts.filterMap removal?
  | ts => redirections ts

/-- What a script does to files if all of it is done. -/
def effect (script : String) : List FileOp :=
  (commands (tokens script)).flatMap commandEffect

theorem redirections_words (ws : List (List Char)) : redirections (ws.map .word) = [] := by
  induction ws with
  | nil => rfl
  | cons w ws ih => exact ih

theorem commands_words (ws : List (List Char)) : commands (ws.map .word) = [ws.map .word] := by
  induction ws with
  | nil => rfl
  | cons w ws ih => simp [commands, Token.ends, ih]

/-- Words up to an operator are a command. -/
theorem commands_words_append {o : List Char} (ho : (Token.operator o).ends) (ws : List (List Char))
    (ts : List Token) :
    commands (ws.map .word ++ .operator o :: ts) = ws.map .word :: commands ts := by
  induction ws with
  | nil => rw [List.map_nil, List.nil_append, commands, if_pos ho]
  | cons w ws ih => simp [commands, Token.ends, ih]

/-- A command without a redirection does nothing to files, unless it is `rm`. -/
theorem commandEffect_words {w : List Char} (hw : w ≠ ['r', 'm']) (ws : List (List Char)) :
    commandEffect ((w :: ws).map .word) = [] := by
  rw [List.map_cons, commandEffect, ← List.map_cons, redirections_words]
  intro ts h
  exact hw (Token.word.inj (List.cons.inj h).1)

theorem effect_of_words {script : String} {w : List Char} {ws : List (List Char)}
    (h : tokens script = (w :: ws).map .word) (hw : w ≠ ['r', 'm']) : effect script = [] := by
  rw [effect, h, commands_words, List.flatMap_singleton, commandEffect_words hw]

end Shell

end Provisioning
