import Provisioning.Proofs.Cache.Listing
import Provisioning.Proofs.Package.Compile
import Provisioning.Proofs.Run.Bookkeeping

/-!
# What a search of the cache finds

The script that lists the markers leaves the search to `find`, which is given the root as it stands
in the settings, with all slashes at its end.  It shows a file by that text, a slash unless the text
ends in one, and the path below.  The directories of tasks and the reading of a listing leave the
slashes at the end out.

* `Files.Holds.doneScript` : the script that marks a command leaves one more marker;
* `Search.toList_line` : slashes after the first one at the end of the root come before the name of
  the task;
* `Inventory.ofListing_found` : so markers are found as they were written, under a root that does
  not end in two slashes;
* `Files.finds_iff_lists` : what a search shows under such a root are the paths of the markers.
-/

namespace Provisioning

/-! ### Written markers -/

/-- Among the files of a host the paths that a listing shows are those of some markers. -/
def Files.Holds (fs : Files) (root : String) (ms : Set Marker) : Prop :=
  ∀ p, p ∈ fs ∧ IsListed p ↔ ∃ m ∈ ms, p = Mark.success.path (Cache.taskDir root m.task) m.sum

namespace Files.Holds

variable {fs : Files} {root : String} {ms : Set Marker}

theorem empty (root : String) : (∅ : Files).Holds root ∅ := by simp [Holds]

/-- The script that marks a command as done leaves its marker beside those that were there. -/
theorem doneScript (h : fs.Holds root ms) (m : Marker) (script : String) :
    (fs.after (Shell.effect
      (Runner.doneScript (Cache.taskDir root m.task) m.sum script))).Holds root (insert m ms) := by
  intro p
  rw [effect_doneScript, after_cons, after_cons, after_nil, mem_afterOp_remove,
    mem_afterOp_write]
  constructor
  · rintro ⟨⟨rfl | hp, -⟩, hlisted⟩
    · exact ⟨m, Set.mem_insert m ms, rfl⟩
    · obtain ⟨m', hm', rfl⟩ := (h p).1 ⟨hp, hlisted⟩
      exact ⟨m', Set.mem_insert_of_mem m hm', rfl⟩
  · rintro ⟨m', hm', rfl⟩
    refine ⟨⟨?_, fun he => ?_⟩, isListed_success _ _⟩
    · rcases hm' with rfl | hm'
      · exact .inl rfl
      · exact .inr ((h _).2 ⟨m', hm', rfl⟩).1
    · exact not_isListed_failure _ _ (he ▸ isListed_success _ _)

end Files.Holds

/-! ### Searches -/

namespace Shell

/-- What follows `find` in the commands of a script. -/
def searches (script : String) : List (List Token) :=
  (commands (tokens script)).filterMap fun
    | .word ['f', 'i', 'n', 'd'] :: ts => some ts
    | .word ['t', 'h', 'e', 'n'] :: .word ['f', 'i', 'n', 'd'] :: ts => some ts
    | _ => none

end Shell

namespace Search

/-- The words of a search for the markers of success below a directory. -/
def words (start : String) : List Shell.Token :=
  [start.toList, "-type".toList, "f".toList, "-name".toList, "*.done".toList].map .word

/-- The line that shows a file below the directory at which a search starts. -/
def line (start : String) (below : List Char) : String :=
  String.ofList <|
    if start.toList.getLast? = some '/' then start.toList ++ below else start.toList ++ '/' :: below

theorem searches_listingScript (root : String) :
    Shell.searches (Cache.listingScript root) = [words root] := by
  rw [Shell.searches, tokens_listingScript]
  simp [Shell.commands, Shell.Token.ends, words]

/-- The script that lists the markers searches at the root as it stands. -/
theorem eq_of_searches {root start : String}
    (h : Shell.searches (Cache.listingScript root) = [words start]) : root = start := by
  rw [searches_listingScript] at h
  simpa [words, String.toList_inj] using h

end Search

/-- A text is what a script prints that searches for the markers of success: a line for each, in
any order. -/
def Files.Finds (fs : Files) (script listing : String) : Prop :=
  ∃ start, Shell.searches script = [Search.words start] ∧
    ∃ found : List (List Char),
      (∀ below, below ∈ found ↔
        let p := String.ofList (Cache.bareRoot start ++ '/' :: below)
        p ∈ fs ∧ IsListed p) ∧
      listing = String.join (found.map fun below => Search.line start below ++ "\n")

/-! ### Slashes at the end of the root -/

namespace Cache

/-- The slashes at the end of a root, but for the first of them. -/
def surplus (root : String) : String :=
  String.ofList (root.toList.drop ((bareRoot root).length + 1))

/-- A root is what stands before its slashes at the end, and these. -/
theorem exists_toList_eq (root : String) :
    ∃ n, root.toList = bareRoot root ++ List.replicate n '/' := by
  generalize hslashes : root.toList.reverse.takeWhile (· == '/') = slashes
  have hreplicate : slashes = List.replicate slashes.length '/' := by
    rw [List.eq_replicate_iff]
    refine ⟨rfl, fun c hc => ?_⟩
    rw [← hslashes] at hc
    simpa using List.all_eq_true.1 List.all_takeWhile c hc
  refine ⟨slashes.length, ?_⟩
  rw [bareRoot, Text.dropWhileEnd, ← List.reverse_replicate, ← hreplicate, ← List.reverse_append,
    ← hslashes, List.takeWhile_append_dropWhile, List.reverse_reverse]

theorem getLast?_bareRoot (root : String) : (bareRoot root).getLast? ≠ some '/' := by
  rw [bareRoot, Text.dropWhileEnd, List.getLast?_reverse]
  intro hlast
  have := List.head?_dropWhile_not (· == '/') root.toList.reverse
  rw [hlast] at this
  simp at this

theorem toList_surplus {root : String} {n : Nat}
    (h : root.toList = bareRoot root ++ List.replicate n '/') :
    (surplus root).toList = List.replicate (n - 1) '/' := by
  rw [surplus, String.toList_ofList, h, ← List.drop_drop, List.drop_left, List.drop_replicate]

theorem subset_surplus (root : String) : (surplus root).toList ⊆ root.toList := by
  rw [surplus, String.toList_ofList]
  exact List.drop_subset _ _

/-- Some slashes are left over if a root ends in two. -/
theorem slash_mem_surplus_iff {root : String} :
    '/' ∈ (surplus root).toList ↔ ['/', '/'] <:+ root.toList := by
  obtain ⟨n, hroot⟩ := exists_toList_eq root
  rw [toList_surplus hroot, List.mem_replicate, hroot]
  constructor
  · rintro ⟨hn, -⟩
    obtain ⟨k, rfl⟩ := Nat.exists_eq_add_of_le' (show 2 ≤ n by omega)
    refine ⟨bareRoot root ++ List.replicate k '/', ?_⟩
    rw [List.append_assoc, show ['/', '/'] = List.replicate 2 '/' from rfl,
      List.replicate_append_replicate]
  · rintro ⟨before, h⟩
    refine ⟨fun hn => ?_, rfl⟩
    -- with no slash or one at the end the bare root would end in a slash
    refine getLast?_bareRoot root ?_
    obtain rfl | rfl : n = 0 ∨ n = 1 := by omega
    · rw [List.replicate_zero, List.append_nil] at h
      rw [← h, List.getLast?_append]
      rfl
    · have htwo : before ++ ['/'] ++ ['/'] = bareRoot root ++ ['/'] := by simpa using h
      rw [← List.append_cancel_right htwo, List.getLast?_concat]

theorem surplus_eq_empty {root : String} (h : ¬ ['/', '/'] <:+ root.toList) :
    surplus root = "" := by
  obtain ⟨n, hroot⟩ := exists_toList_eq root
  rw [← slash_mem_surplus_iff, toList_surplus hroot, List.mem_replicate, not_and_or] at h
  rw [← String.toList_inj, toList_surplus hroot]
  simp at h
  simp [h]

end Cache

/-- Slashes left over stand before the path of a file in its line. -/
theorem Search.toList_line (root : String) (below : List Char) :
    (line root below).toList =
      Cache.bareRoot root ++ '/' :: ((Cache.surplus root).toList ++ below) := by
  obtain ⟨n, hroot⟩ := Cache.exists_toList_eq root
  rw [line, String.toList_ofList, Cache.toList_surplus hroot]
  cases n with
  | zero =>
    have hbare : root.toList = Cache.bareRoot root := by simpa using hroot
    rw [if_neg (by rw [hbare]; exact Cache.getLast?_bareRoot root), hbare]
    rfl
  | succ n =>
    have hlast : root.toList.getLast? = some '/' := by
      rw [hroot, List.replicate_succ', ← List.append_assoc, List.getLast?_concat]
    rw [if_pos hlast, hroot]
    simp [List.replicate_succ]

/-- The path of a marker below the root of the cache. -/
def Marker.below (m : Marker) : List Char :=
  m.task.toList ++ '/' :: (m.sum.toList ++ Mark.success.ending)

theorem Marker.toList_path (root : String) (m : Marker) :
    (Mark.success.path (Cache.taskDir root m.task) m.sum).toList =
      Cache.bareRoot root ++ '/' :: m.below := by
  simp [below, Mark.toList_path, Cache.toList_taskDir]

/-- The markers that a host holds can be shown in any order. -/
theorem Files.Holds.finds {fs : Files} {root : String} {ms : List Marker}
    (h : fs.Holds root {m | m ∈ ms}) :
    fs.Finds (Cache.listingScript root)
      (String.join (ms.map fun m => Search.line root m.below ++ "\n")) := by
  refine ⟨root, Search.searches_listingScript root, ms.map Marker.below, fun below => ?_, ?_⟩
  · simp only [h _, ← String.toList_inj, String.toList_ofList, Marker.toList_path, List.mem_map]
    simp [eq_comm]
  · rw [List.map_map]
    rfl

namespace Inventory

variable {root listing : String} {fs : Files} {ms : Set Marker}

theorem not_mem_below {m : Marker} (hname : nameFault? m.task = none)
    (hsum : isChecksum m.sum.toList) : '\n' ∉ m.below := by
  have htask : '\n' ∉ m.task.toList := fun h =>
    absurd ((nameFault?_eq_none_iff.1 hname).2.1 _ h) (by decide)
  have hdigits : '\n' ∉ m.sum.toList := by
    intro h
    rw [isChecksum, Bool.and_eq_true, List.all_eq_true] at hsum
    exact absurd (hsum.2 _ h) (by decide)
  simp [Marker.below, htask, hdigits, Mark.ending]

theorem legible_of_isAbsolute (habs : Path.isAbsolute root) (hfeed : '\n' ∉ root.toList) :
    Cache.Legible root := by
  obtain ⟨n, hroot⟩ := Cache.exists_toList_eq root
  rw [Path.isAbsolute, beq_iff_eq, hroot] at habs
  rw [hroot] at hfeed
  refine ⟨fun h => hfeed (List.mem_append_left _ h), fun c hc => ?_⟩
  cases hbare : Cache.bareRoot root with
  | nil =>
    rw [hbare] at hc
    obtain rfl : '/' = c := by simpa using hc
    decide
  | cons d ds =>
    rw [hbare] at hc habs
    obtain rfl : d = c := by simpa using hc
    obtain rfl : d = '/' := by simpa using habs
    decide

/-- The line of a marker is read as a marker of the task with the slashes left over before its
name. -/
theorem markerOfPath_line {m : Marker} (hname : nameFault? m.task = none)
    (hsum : isChecksum m.sum.toList) :
    markerOfPath root (Search.line root m.below).toList =
      .ok ⟨Cache.surplus root ++ m.task, m.sum⟩ := by
  have hline : Search.line root m.below =
      Mark.success.path (Cache.taskDir root (Cache.surplus root ++ m.task)) m.sum := by
    rw [← String.toList_inj, Search.toList_line, Mark.toList_path, Cache.toList_taskDir]
    simp [Marker.below]
  rw [hline]
  refine markerOfPath_path (fun he => ?_) hsum
  have hlist := congrArg String.toList he
  simp [(nameFault?_eq_none_iff.1 hname).1] at hlist

/-- The lines of markers are read as they stand. -/
theorem listedPaths_lines (habs : Path.isAbsolute root) (hfeed : '\n' ∉ root.toList)
    {found : List (List Char)} (h : ∀ below ∈ found, ∃ m : Marker,
      nameFault? m.task = none ∧ isChecksum m.sum.toList ∧ below = m.below) :
    listedPaths (String.join (found.map fun below => Search.line root below ++ "\n")) =
      found.map fun below => (Search.line root below).toList := by
  have hlines : listedPaths (String.join ((found.map (Search.line root)).map (· ++ "\n"))) =
      (found.map (Search.line root)).map String.toList := by
    refine listedPaths_join (legible_of_isAbsolute habs hfeed) ?_ ?_
    · intro p hp
      obtain ⟨below, hbelow, rfl⟩ := List.mem_map.1 hp
      obtain ⟨m, hname, hsum, rfl⟩ := h below hbelow
      refine ⟨_, Search.toList_line root m.below, fun hmem => ?_⟩
      rcases List.mem_append.1 hmem with hmem | hmem
      · exact hfeed (Cache.subset_surplus root hmem)
      · exact not_mem_below hname hsum hmem
    · intro p hp
      obtain ⟨below, hbelow, rfl⟩ := List.mem_map.1 hp
      obtain ⟨m, -, -, rfl⟩ := h below hbelow
      rw [Files.IsListed, Search.toList_line]
      exact ⟨Cache.bareRoot root ++ '/' :: ((Cache.surplus root).toList ++
        (m.task.toList ++ '/' :: m.sum.toList)), by simp [Marker.below]⟩
  simpa [List.map_map, Function.comp_def] using hlines

/-- The paths that a search for markers shows. -/
theorem mem_listedPaths_found (habs : Path.isAbsolute root) (hfeed : '\n' ∉ root.toList)
    (hms : ∀ m ∈ ms, nameFault? m.task = none ∧ isChecksum m.sum.toList)
    {found : List (List Char)} (hfound : ∀ below, below ∈ found ↔ ∃ m ∈ ms, below = m.below)
    (path : List Char) :
    path ∈ listedPaths (String.join (found.map fun below => Search.line root below ++ "\n")) ↔
      ∃ m ∈ ms, path = (Search.line root m.below).toList := by
  rw [listedPaths_lines habs hfeed fun below hbelow => ?_, List.mem_map]
  constructor
  · rintro ⟨below, hbelow, rfl⟩
    obtain ⟨m, hm, rfl⟩ := (hfound below).1 hbelow
    exact ⟨m, hm, rfl⟩
  · rintro ⟨m, hm, rfl⟩
    exact ⟨m.below, (hfound _).2 ⟨m, hm, rfl⟩, rfl⟩
  · obtain ⟨m, hm, rfl⟩ := (hfound below).1 hbelow
    exact ⟨m, (hms m hm).1, (hms m hm).2, rfl⟩

/-- What a search for markers shows is accepted, and read as these markers with the slashes left
over before the names of their tasks. -/
theorem exists_ofListing_found (habs : Path.isAbsolute root) (hfeed : '\n' ∉ root.toList)
    (hms : ∀ m ∈ ms, nameFault? m.task = none ∧ isChecksum m.sum.toList)
    {found : List (List Char)} (hfound : ∀ below, below ∈ found ↔ ∃ m ∈ ms, below = m.below) :
    ∃ inv, ofListing root (String.join (found.map fun below => Search.line root below ++ "\n")) =
        .ok inv ∧
      ∀ m, m ∈ inv ↔ ∃ m' ∈ ms, m = ⟨Cache.surplus root ++ m'.task, m'.sum⟩ := by
  have hpaths := mem_listedPaths_found habs hfeed hms hfound
  have hread : ∀ m ∈ ms, markerOfPath root (Search.line root m.below).toList =
      .ok ⟨Cache.surplus root ++ m.task, m.sum⟩ := by
    intro m hm
    exact markerOfPath_line (hms m hm).1 (hms m hm).2
  obtain ⟨inv, hinv⟩ : ∃ inv, ofListing root (String.join (found.map fun below =>
      Search.line root below ++ "\n")) = .ok inv := by
    refine exists_ofPaths (fun path hpath => ?_) ∅
    obtain ⟨m, hm, rfl⟩ := (hpaths path).1 hpath
    exact ⟨_, hread m hm⟩
  refine ⟨inv, hinv, fun m => ?_⟩
  simp only [mem_ofPaths hinv, not_mem_empty, false_or, hpaths]
  constructor
  · rintro ⟨-, ⟨m', hm', rfl⟩, h⟩
    rw [hread m' hm'] at h
    exact ⟨m', hm', (Except.ok.inj h).symm⟩
  · rintro ⟨m', hm', rfl⟩
    exact ⟨_, ⟨m', hm', rfl⟩, hread m' hm'⟩

/-- What a search shows is read as the markers that were written, the slashes left over before the
names of their tasks.  So exactly these are found if the root does not end in two slashes, and none
of them is if it does. -/
theorem ofListing_found (habs : Path.isAbsolute root) (hfeed : '\n' ∉ root.toList)
    (hms : ∀ m ∈ ms, nameFault? m.task = none ∧ isChecksum m.sum.toList)
    (hfs : fs.Holds root ms) (hfind : fs.Finds (Cache.listingScript root) listing) :
    ∃ inv, ofListing root listing = .ok inv ∧
      (∀ m, m ∈ inv ↔ ∃ m' ∈ ms, m = ⟨Cache.surplus root ++ m'.task, m'.sum⟩) ∧
      (¬ ['/', '/'] <:+ root.toList → ∀ m, m ∈ inv ↔ m ∈ ms) ∧
      (['/', '/'] <:+ root.toList → ∀ m ∈ ms, m ∉ inv) := by
  obtain ⟨start, hstart, found, hfound, rfl⟩ := hfind
  obtain rfl := Search.eq_of_searches hstart
  have hfound : ∀ below, below ∈ found ↔ ∃ m ∈ ms, below = m.below := by
    intro below
    rw [hfound, hfs]
    refine exists_congr fun m => and_congr_right fun _ => ?_
    rw [← String.toList_inj, String.toList_ofList, m.toList_path]
    simp
  obtain ⟨inv, hinv, hmem⟩ := exists_ofListing_found habs hfeed hms hfound
  refine ⟨inv, hinv, hmem, fun hends m => ?_, fun hends m hm hin => ?_⟩
  · rw [hmem, Cache.surplus_eq_empty hends]
    simp
  · -- a name with slashes left over before it is no valid one
    obtain ⟨m', -, rfl⟩ := (hmem m).1 hin
    have hslash := (nameFault?_eq_none_iff.1 (hms _ hm).1).2.2.1
    rw [String.toList_append, List.mem_append, not_or] at hslash
    exact hslash.1 (Cache.slash_mem_surplus_iff.2 hends)

end Inventory

/-! ### Searches and listings -/

/-- Under a root that does not end in two slashes a file is shown at its path. -/
theorem Search.line_eq {root : String} (hroot : ¬ ['/', '/'] <:+ root.toList) (below : List Char) :
    line root below = String.ofList (Cache.bareRoot root ++ '/' :: below) := by
  rw [← String.toList_inj, toList_line, Cache.surplus_eq_empty hroot]
  simp

/-- So what a search shows is a listing of the markers, if all of them lie below the root. -/
theorem Files.finds_iff_lists {fs : Files} {root listing : String}
    (hroot : ¬ ['/', '/'] <:+ root.toList) (hb : fs.Below root) :
    fs.Finds (Cache.listingScript root) listing ↔ fs.Lists listing := by
  constructor
  · rintro ⟨start, hstart, found, hfound, rfl⟩
    obtain rfl := Search.eq_of_searches hstart
    refine ⟨found.map (Search.line root), fun p => ?_, by rw [List.map_map]; rfl⟩
    simp only [List.mem_map, hfound, Search.line_eq hroot]
    constructor
    · rintro ⟨below, hbelow, rfl⟩
      exact hbelow
    · rintro ⟨hp, hlisted⟩
      obtain ⟨below, heq, -⟩ := hb p hp hlisted
      have hpath : String.ofList (Cache.bareRoot root ++ '/' :: below) = p := by
        rw [← heq, String.ofList_toList]
      exact ⟨below, hpath ▸ ⟨hp, hlisted⟩, hpath⟩
  · rintro ⟨paths, hpaths, rfl⟩
    have hline : ∀ p ∈ paths,
        Search.line root (p.toList.drop ((Cache.bareRoot root).length + 1)) = p := by
      intro p hp
      obtain ⟨below, heq, -⟩ := hb p ((hpaths p).1 hp).1 ((hpaths p).1 hp).2
      rw [Search.line_eq hroot, heq, ← List.drop_drop, List.drop_left, List.drop_one, List.tail_cons,
        ← heq, String.ofList_toList]
    refine ⟨root, Search.searches_listingScript root,
      paths.map fun p => p.toList.drop ((Cache.bareRoot root).length + 1), fun below => ?_, ?_⟩
    · rw [List.mem_map]
      constructor
      · rintro ⟨p, hp, rfl⟩
        show String.ofList _ ∈ fs ∧ _
        rw [← Search.line_eq hroot, hline p hp]
        exact (hpaths p).1 hp
      · intro hbelow
        exact ⟨_, (hpaths _).2 hbelow, by simp [← List.drop_drop]⟩
    · rw [List.map_map]
      refine congrArg String.join (List.map_congr_left fun p hp => ?_)
      rw [Function.comp_apply, hline p hp]

/-! ### One marker -/

/-- A marker of a task `t`. -/
def Marker.sample : Marker :=
  ⟨"t", "0000000000000000000000000000000000000000000000000000000000000001"⟩

/-- The files of a host on which one command was marked as done. -/
def Files.sampled (root : String) : Files :=
  (∅ : Files).after (Shell.effect
    (Runner.doneScript (Cache.taskDir root Marker.sample.task) Marker.sample.sum "echo"))

theorem Files.holds_sampled (root : String) :
    (sampled root).Holds root {m | m ∈ [Marker.sample]} := by
  simpa [sampled] using (Holds.empty root).doneScript Marker.sample "echo"

/-- One slash at the end of the root does no harm. -/
theorem Inventory.sample_found : ∃ listing inv,
    (Files.sampled "/c/").Finds (Cache.listingScript "/c/") listing ∧
      ofListing "/c/" listing = .ok inv ∧ ∀ m, m ∈ inv ↔ m = Marker.sample := by
  have hfind := (Files.holds_sampled "/c/").finds
  obtain ⟨inv, hinv, -, hfound, -⟩ := ofListing_found (by decide) (by decide)
    (by simp only [List.mem_singleton, Set.mem_ofPred_eq, forall_eq]; decide)
    (Files.holds_sampled "/c/") hfind
  refine ⟨_, inv, hfind, hinv, fun m => ?_⟩
  rw [hfound (by decide)]
  simp

/-- Two slashes at the end of the root hide every marker: the one that was written is read as a
marker of the task `/t`. -/
theorem Inventory.sample_not_found : ∃ listing inv,
    (Files.sampled "/c//").Finds (Cache.listingScript "/c//") listing ∧
      ofListing "/c//" listing = .ok inv ∧ Marker.sample ∉ inv ∧
        ⟨"/t", Marker.sample.sum⟩ ∈ inv := by
  refine ⟨_, ⟨[⟨"/t", Marker.sample.sum⟩], by simp⟩, (Files.holds_sampled "/c//").finds, ?_, ?_, ?_⟩
  · rfl
  · decide
  · decide

end Provisioning
