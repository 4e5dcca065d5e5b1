import Provisioning.Path
import Provisioning.Proofs.Text.Search
import Provisioning.Rehearsal.Files

/-!
# Laws of file trees

Where a path leads, if it leads anywhere, can be said without looking at the tree; whether it
leads there depends on the directories alone.  Making directories and adding to files takes
nothing away, and what was made once need not be made again.

* `Files.get?_put_self`, `Files.get?_put_of_ne` : what stands where after something is put;
* `Files.Within` : directories stay directories, and files stay files;
* `Files.resolve_eq_goal`, `Files.Within.resolve` : where a path leads;
* `Files.goal_join` : where a path that is put together leads;
* `Files.makePath_spec`, `Files.ready_spec`, `Files.append_spec` : what files hold afterwards;
* `Files.Within.makePath` : directories that are made again.
-/

namespace Provisioning

namespace Rehearsal

namespace Files

variable {fs fs' fs'' : Files} {cwd at_ p q : Place} {e : Entry}

/-! ### Entries -/

theorem get?_of_ne_nil (fs : Files) (hp : p ≠ []) : fs.get? p = fs.entries.lookup p := by
  cases p with
  | nil => exact absurd rfl hp
  | cons name rest => rfl

/-- Where different things stand are different places. -/
theorem ne_of_get? {e? e?' : Option Entry} (hp : fs.get? p = e?) (hq : fs.get? q = e?')
    (he : e?' ≠ e?) : q ≠ p := by
  rintro rfl
  exact he (hq.symm.trans hp)

/-- The root is always a directory. -/
theorem ne_nil_of_get? {e? : Option Entry} (h : fs.get? p = e?) (he : e? ≠ some .directory) :
    p ≠ [] := ne_of_get? rfl h he

theorem lookup_replace (es : List (Place × Entry)) (p q : Place) (e : Entry) :
    (es.map fun (at_, old) => if at_ == p then (at_, e) else (at_, old)).lookup q =
      if q = p then (es.lookup q).map fun _ => e else es.lookup q := by
  induction es with
  | nil => simp
  | cons entry es ih =>
    obtain ⟨at_, old⟩ := entry
    by_cases hat : at_ = p <;> by_cases hq : q = at_ <;>
      simp_all [List.lookup_cons, beq_false_of_ne]

theorem get?_put_self (hp : p ≠ []) : (fs.put p e).get? p = some e := by
  rw [get?_of_ne_nil _ hp, put]
  split
  · next h =>
    obtain ⟨old, hold⟩ := Option.isSome_iff_exists.1 h
    rw [lookup_replace, if_pos rfl, hold, Option.map_some]
  · next h =>
    rw [Option.not_isSome_iff_eq_none] at h
    simp [List.lookup_append, h]

theorem get?_put_of_ne (h : q ≠ p) : (fs.put p e).get? q = fs.get? q := by
  by_cases hq : q = []
  · rw [hq]
    rfl
  rw [get?_of_ne_nil _ hq, get?_of_ne_nil _ hq, put]
  split
  · rw [lookup_replace, if_neg h]
  · simp [List.lookup_append, List.lookup_cons, beq_false_of_ne h]

/-! ### Trees that grow -/

/-- Whether a tree still has the directories and files of another; files may hold other things. -/
structure Within (fs fs' : Files) : Prop where
  directory : ∀ {p}, fs.get? p = some .directory → fs'.get? p = some .directory
  file : ∀ {p bytes}, fs.get? p = some (.file bytes) → ∃ bytes', fs'.get? p = some (.file bytes')

theorem Within.refl (fs : Files) : fs.Within fs where
  directory h := h
  file h := ⟨_, h⟩

theorem Within.trans (h : fs.Within fs') (h' : fs'.Within fs'') : fs.Within fs'' where
  directory hp := h'.directory (h.directory hp)
  file hp := by
    obtain ⟨bytes', hp'⟩ := h.file hp
    exact h'.file hp'

theorem within_put_of_none (hp : fs.get? p = none) : fs.Within (fs.put p e) where
  directory hq := by rw [get?_put_of_ne (ne_of_get? hp hq (by simp)), hq]
  file {q bytes} hq := ⟨bytes, by rw [get?_put_of_ne (ne_of_get? hp hq (by simp)), hq]⟩

theorem within_put_of_file {bytes bytes' : List UInt8} (hp : fs.get? p = some (.file bytes)) :
    fs.Within (fs.put p (.file bytes')) where
  directory hq := by rw [get?_put_of_ne (ne_of_get? hp hq (by simp)), hq]
  file {q held} hq := by
    by_cases hne : q = p
    · subst hne
      exact ⟨bytes', get?_put_self (ne_nil_of_get? hp (by simp))⟩
    · exact ⟨held, by rw [get?_put_of_ne hne, hq]⟩

/-! ### Where paths lead -/

/-- The place that a name leads to. -/
def turn (at_ : Place) (name : String) : Place :=
  if name == "." then at_ else if name == ".." then at_.dropLast else at_ ++ [name]

/-- The place that a path leads to if it can be followed. -/
def goal (cwd : Place) (path : String) : Place :=
  (names path).foldl turn (if path.toList.head? == some '/' then [] else cwd)

/-- A name can be followed from a directory, if it is one. -/
theorem follow_cons_eq_ok {name : String} {rest : List String} :
    fs.follow at_ (name :: rest) = .ok p ↔ fs.get? at_ = some .directory ∧
      (name ≠ "." → name ≠ ".." → nameFault? name = none) ∧
      fs.follow (turn at_ name) rest = .ok p := by
  rw [follow, turn]
  cases hat : fs.get? at_ with
  | none => simp
  | some entry =>
    cases entry with
    | file bytes => simp
    | directory =>
      by_cases hdot : name = "."
      · simp [hdot]
      by_cases hdots : name = ".."
      · simp [hdots]
      cases nameFault? name <;> simp [hdot, hdots]

theorem follow_eq_foldl {ns : List String} (h : fs.follow at_ ns = .ok p) :
    p = ns.foldl turn at_ := by
  induction ns generalizing at_ with
  | nil => exact (Except.ok.inj h).symm
  | cons name rest ih => exact ih (follow_cons_eq_ok.1 h).2.2

theorem Within.follow {ns : List String} (h : fs.Within fs') (hp : fs.follow at_ ns = .ok p) :
    fs'.follow at_ ns = .ok p := by
  induction ns generalizing at_ with
  | nil => exact hp
  | cons name rest ih =>
    obtain ⟨hat, hname, hrest⟩ := follow_cons_eq_ok.1 hp
    exact follow_cons_eq_ok.2 ⟨h.directory hat, hname, ih hrest⟩

/-- A path can only lead to its goal. -/
theorem resolve_eq_goal {path : String} (h : fs.resolve cwd path = .ok p) : p = goal cwd path := by
  rw [resolve] at h
  split at h
  · contradiction
  · have hp := follow_eq_foldl h
    rw [List.foldl_append] at hp
    rw [hp, goal]
    -- the name `.` that stands for a `/` at the end leads nowhere else
    cases path.toList.getLast? == some '/' <;> rfl

/-- A path that can be followed leads there still when the tree has grown. -/
theorem Within.resolve {path : String} (h : fs.Within fs') (hp : fs.resolve cwd path = .ok p) :
    fs'.resolve cwd path = .ok p := by
  rw [Files.resolve] at hp ⊢
  split at hp
  · contradiction
  · next hne =>
    rw [if_neg hne]
    exact h.follow hp

/-! ### Paths put together -/

theorem names_of_toList {path : String} {cs ds : List Char} (h : path.toList = cs ++ '/' :: ds) :
    names path = names (String.ofList cs) ++ names (String.ofList ds) := by
  simp [names, h, Text.splitOn_append_cons]

section

variable {base below name : String}

/-- A relative path that is put below another is followed after it. -/
theorem names_join (h : Path.isAbsolute below = false) :
    names (Path.join base below) = names base ++ names below := by
  rw [Path.join, if_neg (by simp [h])]
  by_cases hempty : base = ""
  · have hnone : names "" = [] := rfl
    simp [hempty, hnone]
  by_cases hslash : base.toList.getLast? = some '/'
  · obtain ⟨dir, hdir⟩ := List.getLast?_eq_some_iff.1 hslash
    have hjoin : (base ++ below).toList = dir ++ '/' :: below.toList := by simp [hdir]
    rw [if_pos (by simp [hslash]), names_of_toList hjoin, names_of_toList hdir,
      String.ofList_toList]
    simp [names, Text.splitOn]
  · have hjoin : (base ++ "/" ++ below).toList = base.toList ++ '/' :: below.toList := by simp
    rw [if_neg (by simp [hslash, hempty]), names_of_toList hjoin, String.ofList_toList,
      String.ofList_toList]

/-- A path that is put below another is followed from where that one leads. -/
theorem goal_join (cwd : Place) (base below : String) :
    goal cwd (Path.join base below) = goal (goal cwd base) below := by
  cases habs : Path.isAbsolute below with
  | true =>
    have hhead : below.toList.head? = some '/' := beq_iff_eq.1 habs
    rw [Path.join, if_pos habs, goal, goal, if_pos (by simp [hhead]), if_pos (by simp [hhead])]
  | false =>
    have hhead : below.toList.head? ≠ some '/' := by simpa [Path.isAbsolute] using habs
    have hstart : (Path.join base below).toList.head? = some '/' ↔
        base.toList.head? = some '/' := by
      rw [Path.join, if_neg (by simp [habs])]
      by_cases hempty : base = ""
      · simp [hempty, hhead]
      · obtain ⟨c, cs, hbase⟩ :=
          List.exists_cons_of_ne_nil (l := base.toList) (by simpa using hempty)
        split <;> simp [hbase]
    rw [goal, names_join habs, List.foldl_append, goal, goal]
    by_cases hb : base.toList.head? = some '/'
    · simp [hb, hstart.2 hb, hhead]
    · simp [hb, mt hstart.1 hb, hhead]

theorem names_of_slashless (hne : name ≠ "") (hs : '/' ∉ name.toList) : names name = [name] := by
  simp [names, Text.splitOn_of_not_mem hs, hne]

/-- A single name is followed as it is. -/
theorem goal_of_slashless (hne : name ≠ "") (hs : '/' ∉ name.toList) (cwd : Place) :
    goal cwd name = turn cwd name := by
  have hhead : name.toList.head? ≠ some '/' := fun h => hs (List.mem_of_head? h)
  rw [goal, names_of_slashless hne hs, if_neg (by simpa using hhead)]
  rfl

end

/-! ### What files hold -/

/-- What the file at a place holds; nothing if none is there. -/
def held (fs : Files) (p : Place) : List UInt8 :=
  match fs.get? p with
  | some (.file bytes) => bytes
  | _ => []

theorem held_of_file {bytes : List UInt8} (h : fs.get? p = some (.file bytes)) :
    fs.held p = bytes := by rw [held, h]

theorem held_of_none (h : fs.get? p = none) : fs.held p = [] := by rw [held, h]

theorem held_congr (h : fs.get? p = fs'.get? p) : fs.held p = fs'.held p := by
  rw [held, held, h]

/-- Where nothing was, a directory or an empty file holds nothing either. -/
theorem held_put_of_none (hp : fs.get? p = none) (he : e = .directory ∨ e = .file []) (q : Place) :
    (fs.put p e).held q = fs.held q := by
  by_cases hq : q = p
  · subst hq
    rw [held, get?_put_self (ne_nil_of_get? hp (by simp)), held_of_none hp]
    rcases he with rfl | rfl <;> rfl
  · exact held_congr (get?_put_of_ne hq)

/-- Making directories takes nothing away. -/
theorem makeDirs_spec {done ns : List String} {r : Except (FileError × List String) Place}
    (h : fs.makeDirs at_ done ns = (fs', r)) :
    fs.Within fs' ∧ ∀ q, fs'.held q = fs.held q := by
  induction ns generalizing fs at_ done with
  | nil =>
    obtain ⟨rfl, -⟩ := Prod.mk.inj h
    exact ⟨.refl _, fun _ => rfl⟩
  | cons name rest ih =>
    rw [makeDirs] at h
    split at h
    · obtain ⟨rfl, -⟩ := Prod.mk.inj h
      exact ⟨.refl _, fun _ => rfl⟩
    · split at h
      · exact ih h
      · obtain ⟨rfl, -⟩ := Prod.mk.inj h
        exact ⟨.refl _, fun _ => rfl⟩
      · next hnone =>
        obtain ⟨hwithin, hheld⟩ := ih h
        exact ⟨(within_put_of_none hnone).trans hwithin, fun q =>
          (hheld q).trans (held_put_of_none hnone (.inl rfl) q)⟩

/-- What was made of directories is there when they are made again, and what could not be made
cannot. -/
theorem Within.makeDirs {done ns : List String} {r : Except (FileError × List String) Place}
    (h : fs'.Within fs'') (hmake : fs.makeDirs at_ done ns = (fs', r)) :
    fs''.makeDirs at_ done ns = (fs'', r) := by
  induction ns generalizing fs at_ done with
  | nil =>
    obtain ⟨rfl, rfl⟩ := Prod.mk.inj hmake
    rfl
  | cons name rest ih =>
    have hwithin := (makeDirs_spec hmake).1.trans h
    rw [Files.makeDirs] at hmake ⊢
    generalize (if name == "." then at_ else if name == ".." then at_.dropLast
      else at_ ++ [name]) = next at hmake ⊢
    cases hfault : nameFault? name with
    | some err =>
      rw [hfault] at hmake
      obtain ⟨-, rfl⟩ := Prod.mk.inj hmake
      rfl
    | none =>
      simp only [hfault] at hmake
      cases hnext : fs.get? next with
      | some entry =>
        cases entry with
        | directory =>
          simp only [hnext] at hmake
          rw [hwithin.directory hnext]
          exact ih hmake
        | file bytes =>
          simp only [hnext] at hmake
          obtain ⟨rfl, rfl⟩ := Prod.mk.inj hmake
          obtain ⟨bytes', hfile⟩ := h.file hnext
          rw [hfile]
      | none =>
        simp only [hnext] at hmake
        have hput : (fs.put next .directory).get? next = some .directory :=
          get?_put_self (ne_nil_of_get? hnext (by simp))
        rw [((makeDirs_spec hmake).1.trans h).directory hput]
        exact ih hmake

theorem makePath_spec {path : String} {r : Except (FileError × List String) Place}
    (h : fs.makePath cwd path = (fs', r)) : fs.Within fs' ∧ ∀ q, fs'.held q = fs.held q := by
  rw [makePath] at h
  split at h
  · obtain ⟨rfl, -⟩ := Prod.mk.inj h
    exact ⟨.refl _, fun _ => rfl⟩
  · exact makeDirs_spec h

theorem Within.makePath {path : String} {r : Except (FileError × List String) Place}
    (h : fs'.Within fs'') (hmake : fs.makePath cwd path = (fs', r)) :
    fs''.makePath cwd path = (fs'', r) := by
  rw [Files.makePath] at hmake ⊢
  split at hmake
  · next hempty =>
    obtain ⟨-, rfl⟩ := Prod.mk.inj hmake
    rw [if_pos hempty]
  · next hne =>
    rw [if_neg hne]
    exact h.makeDirs hmake

/-- A file that is made ready for more is where its path leads and holds what it held. -/
theorem ready_spec {path : String} (h : fs.ready cwd path false = .ok (p, fs')) :
    fs.resolve cwd path = .ok p ∧ fs.Within fs' ∧ (∃ bytes, fs'.get? p = some (.file bytes)) ∧
      ∀ q, fs'.held q = fs.held q := by
  rw [ready] at h
  cases hp : fs.resolve cwd path with
  | error err => simp [hp, bind, Except.bind] at h
  | ok place =>
    simp only [hp, bind, Except.bind] at h
    split at h
    · contradiction
    · next bytes hfile =>
      obtain ⟨rfl, rfl⟩ := Prod.mk.inj (Except.ok.inj h)
      exact ⟨rfl, .refl _, ⟨bytes, hfile⟩, fun _ => rfl⟩
    · next hnone =>
      split at h <;> try contradiction
      obtain ⟨rfl, rfl⟩ := Prod.mk.inj (Except.ok.inj h)
      exact ⟨rfl, within_put_of_none hnone,
        ⟨[], get?_put_self (ne_nil_of_get? hnone (by simp))⟩, held_put_of_none hnone (.inr rfl)⟩

/-- Bytes are added at the end of a file, and nowhere else. -/
theorem append_spec {bytes : List UInt8} (hp : ∃ old, fs.get? p = some (.file old))
    (hsink : p ≠ sink) :
    fs.Within (fs.append p bytes) ∧
      (fs.append p bytes).get? p = some (.file (fs.held p ++ bytes)) ∧
      ∀ q, q ≠ p → (fs.append p bytes).held q = fs.held q := by
  obtain ⟨old, hold⟩ := hp
  have happend : fs.append p bytes = fs.put p (.file (old ++ bytes)) := by
    rw [append, if_neg (by simpa using hsink), hold]
  rw [happend, held_of_file hold]
  exact ⟨within_put_of_file hold, get?_put_self (ne_nil_of_get? hold (by simp)),
    fun q hq => held_congr (get?_put_of_ne hq)⟩

/-- A file that is there is ready. -/
theorem ready_of_file {path : String} {bytes : List UInt8} (hp : fs.resolve cwd path = .ok p)
    (hfile : fs.get? p = some (.file bytes)) : fs.ready cwd path false = .ok (p, fs) := by
  simp [ready, hp, hfile, bind, Except.bind, pure, Except.pure]

/-- A path that leads to a file is read. -/
theorem read_eq_ok {path : String} {bytes : List UInt8} (hp : fs.resolve cwd path = .ok p)
    (hfile : fs.get? p = some (.file bytes)) : fs.read cwd path = .ok bytes := by
  simp [read, find, hp, hfile, bind, Except.bind, pure, Except.pure]

end Files

end Rehearsal

end Provisioning
