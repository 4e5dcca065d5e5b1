import Mathlib.Data.Set.Insert
import Provisioning.Cache.Inventory
import Provisioning.Proofs.Shell.Effect

/-!
# The markers among the files of a host

A host keeps its markers as files below the root of the cache.  `Files.sums` gives the checksums
under which a task has markers of success, or of failure.  As neither a task nor a checksum has a
slash in its name, no two markers share a path (`Mark.path_inj`), and so making or deleting the
file of a marker concerns that marker alone (`Files.sums_write`, `Files.sums_remove`).

Logs lie beside the markers; `Files.markers` leaves them out, so that the writing of a log does not
show (`Files.markers_eq_of_log`).
-/

namespace Provisioning

/-- The two kinds of markers. -/
inductive Mark where
  /-- A command has succeeded. -/
  | success
  /-- A command has failed. -/
  | failure
deriving DecidableEq, Repr

/-- The path of a marker. -/
def Mark.path : Mark → (dir sum : String) → String
  | success => Cache.donePath
  | failure => Cache.failedPath

/-- A name that is a part of a path by itself. -/
def Slashless (name : String) : Prop := '/' ∉ name.toList

instance (name : String) : Decidable (Slashless name) :=
  inferInstanceAs (Decidable ('/' ∉ name.toList))

theorem Slashless.append {a b : String} (ha : Slashless a) (hb : Slashless b) :
    Slashless (a ++ b) := by
  rw [Slashless, String.toList_append, List.mem_append, not_or]
  exact ⟨ha, hb⟩

/-! ### Paths of markers -/

/-- The end of a marker's path. -/
def Mark.ending : Mark → List Char
  | success => ['.', 'd', 'o', 'n', 'e']
  | failure => ['.', 'f', 'a', 'i', 'l', 'e', 'd']

theorem Cache.toList_taskDir (root task : String) :
    (taskDir root task).toList = bareRoot root ++ '/' :: task.toList :=
  String.toList_ofList

theorem Mark.toList_path (m : Mark) (dir sum : String) :
    (m.path dir sum).toList = dir.toList ++ '/' :: sum.toList ++ m.ending := by
  cases m <;> simp [path, ending, Cache.donePath, Cache.failedPath]

theorem Mark.getLast?_path (m : Mark) (dir sum : String) :
    (m.path dir sum).toList.getLast? = some (match m with | success => 'e' | failure => 'd') := by
  cases m <;> simp [toList_path, ending, List.getLast?_append, List.getLast?_cons]

theorem append_slash_inj {a b c d : List Char} (ha : '/' ∉ a) (hc : '/' ∉ c)
    (h : a ++ '/' :: b = c ++ '/' :: d) : a = c ∧ b = d := by
  induction a generalizing c with
  | nil =>
    cases c with
    | nil => exact ⟨rfl, (List.cons.inj h).2⟩
    | cons x c => exact absurd (List.cons.inj h).1 fun hx => hc (hx ▸ List.mem_cons_self)
  | cons x a ih =>
    cases c with
    | nil => exact absurd (List.cons.inj h).1 fun hx => ha (hx ▸ List.mem_cons_self)
    | cons y c =>
      obtain ⟨rfl, ht⟩ := List.cons.inj h
      have := ih (fun hm => ha (List.mem_cons_of_mem _ hm))
        (fun hm => hc (List.mem_cons_of_mem _ hm)) ht
      exact ⟨congrArg _ this.1, this.2⟩

/-- No two markers share a path. -/
theorem Mark.path_inj {m m' : Mark} {root t t' s s' : String} (ht : Slashless t)
    (ht' : Slashless t') :
    m.path (Cache.taskDir root t) s = m'.path (Cache.taskDir root t') s' ↔
      m = m' ∧ t = t' ∧ s = s' := by
  constructor
  · intro h
    have hm : m = m' := by
      have hlast := congrArg (fun p => p.toList.getLast?) h
      simp only [getLast?_path] at hlast
      cases m <;> cases m' <;> simp at hlast ⊢
    subst hm
    have hl := congrArg String.toList h
    simp only [toList_path, Cache.toList_taskDir, List.append_assoc, List.cons_append,
      List.append_cancel_left_eq, List.cons.injEq, true_and] at hl
    obtain ⟨h₁, h₂⟩ := append_slash_inj ht ht' hl
    exact ⟨rfl, String.toList_inj.1 h₁, String.toList_inj.1 (List.append_cancel_right h₂)⟩
  · rintro ⟨rfl, rfl, rfl⟩
    rfl

/-! ### Checksums with a marker -/

namespace Files

variable {root : String}

/-- The checksums under which a task has a marker. -/
def sums (fs : Files) (root : String) (m : Mark) (task : String) : Set String :=
  {s | Slashless s ∧ m.path (Cache.taskDir root task) s ∈ fs}

/-- A new marker is that of one checksum of one task. -/
theorem sums_write {fs : Files} {m : Mark} {t s : String} (ht : Slashless t) (hs : Slashless s)
    (m' : Mark) {t' : String} (ht' : Slashless t') :
    (fs.afterOp (.write (m.path (Cache.taskDir root t) s))).sums root m' t' =
      if m' = m ∧ t' = t then insert s (fs.sums root m' t') else fs.sums root m' t' := by
  split
  · next h =>
    obtain ⟨rfl, rfl⟩ := h
    ext x
    simp only [sums, Set.mem_insert_iff, Set.mem_ofPred_eq, mem_afterOp_write,
      Mark.path_inj ht ht, true_and]
    constructor
    · rintro ⟨hx, rfl | hp⟩
      · exact .inl rfl
      · exact .inr ⟨hx, hp⟩
    · rintro (rfl | ⟨hx, hp⟩)
      · exact ⟨hs, .inl rfl⟩
      · exact ⟨hx, .inr hp⟩
  · next h =>
    ext x
    simp only [sums, Set.mem_ofPred_eq, mem_afterOp_write, Mark.path_inj ht' ht]
    exact and_congr_right fun _ => or_iff_right fun hp => h ⟨hp.1, hp.2.1⟩

/-- A deleted marker was that of one checksum of one task. -/
theorem sums_remove {fs : Files} {m : Mark} {t s : String} (ht : Slashless t) (m' : Mark)
    {t' : String} (ht' : Slashless t') :
    (fs.afterOp (.remove (m.path (Cache.taskDir root t) s))).sums root m' t' =
      if m' = m ∧ t' = t then fs.sums root m' t' \ {s} else fs.sums root m' t' := by
  split
  · next h =>
    obtain ⟨rfl, rfl⟩ := h
    ext x
    simp [sums, Mark.path_inj ht ht, and_assoc]
  · next h =>
    ext x
    simp only [sums, Set.mem_ofPred_eq, mem_afterOp_remove, ne_eq, Mark.path_inj ht' ht]
    exact and_congr_right fun _ => and_iff_left fun hp => h ⟨hp.1, hp.2.1⟩

/-- Many deleted markers were those of their checksums. -/
theorem sums_removes {fs : Files} {m : Mark} {t : String} {ss : List String} (ht : Slashless t)
    (m' : Mark) {t' : String} (ht' : Slashless t') :
    (fs.after (ss.map fun s => .remove (m.path (Cache.taskDir root t) s))).sums root m' t' =
      if m' = m ∧ t' = t then fs.sums root m' t' \ {s | s ∈ ss} else fs.sums root m' t' := by
  induction ss generalizing fs with
  | nil =>
    ext x
    split <;> simp
  | cons s ss ih =>
    rw [List.map_cons, after_cons, ih, sums_remove ht m' ht']
    split
    · ext x
      simp [and_assoc]
    · rfl

/-! ### Markers and logs -/

/-- Whether a path is that of a marker. -/
def IsMarker (p : String) : Prop := ∃ m : Mark, m.ending <:+ p.toList

/-- The files that are markers. -/
def markers (fs : Files) : Files := {p ∈ fs | IsMarker p}

theorem isMarker_path (m : Mark) (dir sum : String) : IsMarker (m.path dir sum) :=
  ⟨m, by rw [Mark.toList_path]; exact List.suffix_append _ _⟩

@[simp] theorem sums_markers (fs : Files) (m : Mark) (task : String) :
    fs.markers.sums root m task = fs.sums root m task := by
  ext x
  simp only [sums, markers, Set.mem_ofPred_eq, and_congr_right_iff, and_iff_left_iff_imp]
  intro _ _
  exact isMarker_path _ _ _

theorem sums_eq_of_markers_eq {fs fs' : Files} (h : fs.markers = fs'.markers) (m : Mark)
    (task : String) : fs.sums root m task = fs'.sums root m task := by
  rw [← sums_markers fs, h, sums_markers]

theorem markers_afterOp {fs : Files} {op : FileOp} (h : IsMarker op.path) :
    (fs.afterOp op).markers = fs.markers.afterOp op := by
  ext p
  cases op with
  | write q =>
    simp only [markers, Set.mem_ofPred_eq, mem_afterOp_write]
    constructor
    · rintro ⟨rfl | hp, hm⟩
      · exact .inl rfl
      · exact .inr ⟨hp, hm⟩
    · rintro (rfl | ⟨hp, hm⟩)
      · exact ⟨.inl rfl, h⟩
      · exact ⟨.inr hp, hm⟩
  | remove q => simp [markers, and_assoc, and_comm]

theorem markers_after {fs : Files} {ops : List FileOp} (h : ∀ op ∈ ops, IsMarker op.path) :
    (fs.after ops).markers = fs.markers.after ops := by
  induction ops generalizing fs with
  | nil => rfl
  | cons op ops ih =>
    rw [after_cons, after_cons, ih fun op' h' => h op' (List.mem_cons_of_mem _ h'),
      markers_afterOp (h op List.mem_cons_self)]

/-- What the same operations leave of markers depends on nothing but the markers before. -/
theorem markers_after_congr {fs fs' : Files} (h : fs.markers = fs'.markers) (ops : List FileOp) :
    (fs.after ops).markers = (fs'.after ops).markers := by
  induction ops generalizing fs fs' with
  | nil => exact h
  | cons op ops ih =>
    refine ih ?_
    ext p
    have hp : p ∈ fs ∧ IsMarker p ↔ p ∈ fs' ∧ IsMarker p := Set.ext_iff.1 h p
    cases op with
    | write q => simp only [markers, Set.mem_ofPred_eq, mem_afterOp_write, or_and_right, hp]
    | remove q => exact (and_right_comm.trans (and_congr_left' hp)).trans and_right_comm

/-- A path that ends otherwise is none of a marker. -/
theorem not_isMarker_of_getLast? {p : String} (hd : p.toList.getLast? ≠ some 'e')
    (hf : p.toList.getLast? ≠ some 'd') : ¬ IsMarker p := by
  rintro ⟨m, pre, h⟩
  rw [← h] at hd hf
  cases m with
  | success => exact hd (by simp [Mark.ending, List.getLast?_append, List.getLast?_cons])
  | failure => exact hf (by simp [Mark.ending, List.getLast?_append, List.getLast?_cons])

theorem not_isMarker_logPath (dir sum : String) : ¬ IsMarker (Cache.logPath dir sum) :=
  not_isMarker_of_getLast? (by simp [Cache.logPath, List.getLast?_append, List.getLast?_cons])
    (by simp [Cache.logPath, List.getLast?_append, List.getLast?_cons])

theorem not_isMarker_partialLogPath (dir sum : String) :
    ¬ IsMarker (Cache.partialLogPath dir sum) :=
  not_isMarker_of_getLast?
    (by simp [Cache.partialLogPath, List.getLast?_append, List.getLast?_cons])
    (by simp [Cache.partialLogPath, List.getLast?_append, List.getLast?_cons])

/-- The writing of a log does not show among the markers. -/
theorem markers_eq_of_log {fs fs' : Files} {dir sum : String}
    (h : ∀ p, p ≠ Cache.logPath dir sum → p ≠ Cache.partialLogPath dir sum →
      (p ∈ fs' ↔ p ∈ fs)) : fs'.markers = fs.markers := by
  ext p
  refine and_congr_left fun hp => h p ?_ ?_
  · rintro rfl
    exact not_isMarker_logPath _ _ hp
  · rintro rfl
    exact not_isMarker_partialLogPath _ _ hp

end Files

end Provisioning
