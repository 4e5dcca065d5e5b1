import Mathlib.Data.Set.Card
import Provisioning.Proofs.Cache.Listing
import Provisioning.Proofs.Cache.Plan

/-!
# Which texts are listings

What a host prints when it is asked for its markers is not to be trusted, and it decides which
commands are skipped.  A line of it is readable if it is blank or shows a marker
(`Inventory.Shows`): below the root come the name of the task, a slash, the 64 digits of the
checksum and perhaps the ending of markers.

* `Inventory.markerOfPath_eq_ok_iff_shows`, `Inventory.markerOfPath_eq_error_iff` : one path is
  read as the marker that it shows, or refused for one of two faults;
* `Inventory.ofPaths_eq_error_iff` : the first path that shows none is the one to blame;
* `Inventory.coe_taskCount`, `Inventory.coe_markerCount` : an inventory counts without repetition;
* `Inventory.ofListing_exact` : so a listing is accepted if all its lines are readable, its
  inventory holds what they show, and else the first of the others is refused.
-/

namespace Provisioning

namespace Inventory

variable {root path : String} {m : Marker}

/-! ### Lines that show a marker -/

/-- Whether a text consists of 64 digits to the base 16, in lower case. -/
def IsDigits (sum : String) : Prop :=
  sum.length = 64 ∧ ∀ c ∈ sum.toList, ('0' ≤ c ∧ c ≤ '9') ∨ ('a' ≤ c ∧ c ≤ 'f')

/-- Whether a path is that of a marker below a root, taken without the slashes at its end.  The
ending that markers have may be lacking. -/
def Shows (root path : String) (m : Marker) : Prop :=
  m.task ≠ "" ∧ IsDigits m.sum ∧ ∃ ending ∈ ["", ".done"],
    path.toList = Cache.bareRoot root ++ '/' :: (m.task.toList ++ '/' :: (m.sum ++ ending).toList)

/-- Whether a line, blanks around it left out, is empty or shows a marker. -/
def Readable (root line : String) : Prop :=
  Text.trim line = "" ∨ ∃ m, Shows root (Text.trim line) m

/-- The markers that some line of a listing shows. -/
def shown (root listing : String) : Set Marker :=
  {m | ∃ line ∈ Text.lines listing, Shows root (Text.trim line) m}

/-- Whether a path lies below a root and has a directory of some name above its last part. -/
def Placed (root path : String) : Prop :=
  ∃ task file : List Char, task ≠ [] ∧ '/' ∉ file ∧
    path.toList = Cache.bareRoot root ++ '/' :: (task ++ '/' :: file)

/-- What is wrong with a path that shows no marker. -/
inductive Blames (root path : String) : Fault → Prop
  /-- It lies elsewhere, or in no directory of a task. -/
  | layout (h : ¬ Placed root path) : Blames root path (.layout path)
  /-- It lies in such a directory. -/
  | corrupt (h : Placed root path) : Blames root path (.corrupt path)

theorem isDigits_iff {s : String} : IsDigits s ↔ isChecksum s.toList := by
  simp [IsDigits, isChecksum, isHexDigit, String.length_toList]

theorem isChecksum_getD_iff {file sum : List Char} :
    isChecksum sum ∧ sum = (Text.dropTail? ".done".toList file).getD file ↔
      isChecksum sum ∧ (file = sum ∨ file = sum ++ ".done".toList) := by
  refine and_congr_right fun hsum => ?_
  cases htail : Text.dropTail? ".done".toList file with
  | some r =>
    rw [Text.dropTail?_eq_some_iff] at htail
    rw [Option.getD_some, htail, List.append_left_inj]
    constructor
    · rintro rfl
      exact .inr rfl
    · rintro (h | h)
      · -- a checksum does not end so
        have hends : Mark.success.ending <:+ sum := ⟨r, h⟩
        rw [not_isChecksum_of_suffix hends] at hsum
        cases hsum
      · exact h.symm
  | none =>
    rw [Option.getD_none]
    constructor
    · rintro rfl
      exact .inl rfl
    · rintro (h | h)
      · exact h.symm
      · rw [Text.dropTail?_eq_some_iff.2 h] at htail
        cases htail

/-- A path is read as the marker that it shows. -/
theorem markerOfPath_eq_ok_iff_shows :
    markerOfPath root path.toList = .ok m ↔ Shows root path m := by
  have hfile : ∀ {file}, isChecksum m.sum.toList →
      (file = m.sum.toList ∨ file = m.sum.toList ++ ".done".toList) → '/' ∉ file := by
    rintro file hsum (rfl | rfl)
    · exact slashless_of_isChecksum hsum
    · rw [List.mem_append, not_or]
      exact ⟨slashless_of_isChecksum hsum, by decide⟩
  rw [markerOfPath_eq_ok_iff, Shows, isDigits_iff]
  constructor
  · rintro ⟨file, hpath, -, htask, hsum⟩
    obtain ⟨hsum, hends⟩ := isChecksum_getD_iff.1 hsum
    refine ⟨htask, hsum, ?_⟩
    rcases hends with rfl | rfl
    · exact ⟨"", by simp, by simpa using hpath⟩
    · exact ⟨".done", by simp, by simpa using hpath⟩
  · rintro ⟨htask, hsum, ending, hending, hpath⟩
    have hends : (m.sum ++ ending).toList = m.sum.toList ∨
        (m.sum ++ ending).toList = m.sum.toList ++ ".done".toList := by
      simp only [List.mem_cons, List.not_mem_nil, or_false] at hending
      rcases hending with rfl | rfl <;> simp
    exact ⟨_, hpath, hfile hsum hends, htask, isChecksum_getD_iff.2 ⟨hsum, hends⟩⟩

/-- The task and the last part of a path below a root. -/
theorem parts_eq_some_iff {path task file : List Char} :
    (Text.dropLead? (Cache.bareRoot root ++ ['/']) path).bind (Text.cutLast '/') =
        some (task, file) ↔
      path = Cache.bareRoot root ++ '/' :: (task ++ '/' :: file) ∧ '/' ∉ file := by
  simp only [Option.bind_eq_some_iff, Text.dropLead?_eq_some_iff, Text.cutLast_eq_some_iff,
    List.append_assoc, List.singleton_append]
  constructor
  · rintro ⟨below, hpath, rfl, hfile⟩
    exact ⟨hpath, hfile⟩
  · rintro ⟨hpath, hfile⟩
    exact ⟨_, hpath, rfl, hfile⟩

theorem markerOfPath_of_placed (h : Placed root path) :
    (∃ m, markerOfPath root path.toList = .ok m) ∨
      markerOfPath root path.toList = .error (.corrupt path) := by
  obtain ⟨task, file, htask, hfile, hpath⟩ := h
  obtain ⟨c, cs, rfl⟩ := List.exists_cons_of_ne_nil htask
  rw [markerOfPath, parts_eq_some_iff.2 ⟨hpath, hfile⟩]
  simp only
  split
  · exact .inl ⟨_, rfl⟩
  · exact .inr (by rw [String.ofList_toList])

theorem markerOfPath_of_not_placed (h : ¬ Placed root path) :
    markerOfPath root path.toList = .error (.layout path) := by
  rw [markerOfPath]
  split
  · rw [String.ofList_toList]
  · rw [String.ofList_toList]
  · next task file hne hparts =>
    obtain ⟨hpath, hfile⟩ := parts_eq_some_iff.1 hparts
    exact absurd ⟨task, file, fun htask => hne htask, hfile, hpath⟩ h

/-- A path that shows no marker is refused, for one of two faults. -/
theorem markerOfPath_eq_error_iff {e : Fault} :
    markerOfPath root path.toList = .error e ↔ (∀ m, ¬ Shows root path m) ∧ Blames root path e := by
  simp only [← markerOfPath_eq_ok_iff_shows]
  by_cases hplaced : Placed root path
  · rcases markerOfPath_of_placed hplaced with ⟨m, hm⟩ | hcorrupt
    · simp [hm]
    · rw [hcorrupt]
      constructor
      · rintro ⟨⟩
        exact ⟨nofun, .corrupt hplaced⟩
      · rintro ⟨-, h | h⟩
        · exact absurd hplaced h
        · rfl
  · rw [markerOfPath_of_not_placed hplaced]
    constructor
    · rintro ⟨⟩
      exact ⟨nofun, .layout hplaced⟩
    · rintro ⟨-, h | h⟩
      · rfl
      · exact absurd h hplaced

/-! ### The first line that shows none -/

/-- Whether a line is the first of some lines that is not readable. -/
def FirstUnreadable (root : String) (lines : List String) (line : String) : Prop :=
  ∃ before after, lines = before ++ line :: after ∧ (∀ l ∈ before, Readable root l) ∧
    ¬ Readable root line

theorem firstUnreadable_cons {l line : String} {ls : List String} :
    FirstUnreadable root (l :: ls) line ↔
      ¬ Readable root l ∧ line = l ∨ Readable root l ∧ FirstUnreadable root ls line := by
  constructor
  · rintro ⟨_ | ⟨b, before⟩, after, heq, hbefore, hline⟩
    · obtain ⟨rfl, -⟩ := List.cons.inj heq
      exact .inl ⟨hline, rfl⟩
    · obtain ⟨rfl, hls⟩ := List.cons.inj heq
      rw [List.forall_mem_cons] at hbefore
      exact .inr ⟨hbefore.1, before, after, hls, hbefore.2, hline⟩
  · rintro (⟨hline, rfl⟩ | ⟨hl, before, after, rfl, hbefore, hline⟩)
    · exact ⟨[], ls, rfl, by simp, hline⟩
    · exact ⟨l :: before, after, rfl, List.forall_mem_cons.2 ⟨hl, hbefore⟩, hline⟩

variable {listing : String} {inv : Inventory}

theorem listedPaths_eq (listing : String) : listedPaths listing =
    (((Text.lines listing).map Text.trim).map String.toList).filter (!·.isEmpty) := by
  simp [listedPaths, Text.trim, Function.comp_def]

theorem forall_mem_listedPaths {P : List Char → Prop} :
    (∀ p ∈ listedPaths listing, P p) ↔
      ∀ l ∈ Text.lines listing, Text.trim l = "" ∨ P (Text.trim l).toList := by
  simp [listedPaths, Text.trim, or_iff_not_imp_left]

theorem readable_iff {line : String} : Readable root line ↔
    Text.trim line = "" ∨ ∃ m, markerOfPath root (Text.trim line).toList = .ok m := by
  simp only [Readable, markerOfPath_eq_ok_iff_shows]

theorem exists_ofListing_iff :
    (∃ inv, ofListing root listing = .ok inv) ↔ ∀ l ∈ Text.lines listing, Readable root l := by
  simp only [readable_iff,
    ← forall_mem_listedPaths (P := fun p => ∃ m, markerOfPath root p = .ok m)]
  exact ⟨fun ⟨_, h⟩ => exists_of_ofPaths h, fun h => exists_ofPaths h ∅⟩

theorem Shows.ne_empty (h : Shows root path m) : path ≠ "" := by
  obtain ⟨-, -, ending, -, hpath⟩ := h
  rintro rfl
  simp at hpath

/-- The inventory of a listing holds what its lines show, and nothing else. -/
theorem mem_iff_of_ofListing (h : ofListing root listing = .ok inv) :
    m ∈ inv ↔ m ∈ shown root listing := by
  have hlines : (∃ p ∈ listedPaths listing, markerOfPath root p = .ok m) ↔
      ∃ l ∈ Text.lines listing,
        Text.trim l ≠ "" ∧ markerOfPath root (Text.trim l).toList = .ok m := by
    simp [listedPaths, Text.trim, and_assoc]
  rw [mem_ofPaths h, hlines, or_iff_right (not_mem_empty m)]
  simp only [markerOfPath_eq_ok_iff_shows]
  refine exists_congr fun l => and_congr_right fun _ => ?_
  exact ⟨And.right, fun hl => ⟨hl.ne_empty, hl⟩⟩

/-- The first line that cannot be read is the one that is refused. -/
theorem ofPaths_eq_error_iff {ls : List String} {e : Fault} :
    ofPaths root inv ((ls.map fun l => Text.trimChars l.toList).filter (!·.isEmpty)) = .error e ↔
      ∃ line, FirstUnreadable root ls line ∧ Blames root (Text.trim line) e := by
  induction ls generalizing inv with
  | nil => simp [ofPaths, FirstUnreadable]
  | cons l ls ih =>
    have htrim : Text.trimChars l.toList = (Text.trim l).toList := by simp [Text.trim]
    simp only [firstUnreadable_cons, readable_iff, List.map_cons, List.filter_cons, htrim]
    by_cases hblank : Text.trim l = ""
    · simp [hblank, ih]
    · have hne : (Text.trim l).toList.isEmpty = false := by simpa using hblank
      cases hm : markerOfPath root (Text.trim l).toList with
      | ok m => simp [hblank, hne, ofPaths, hm, ih]
      | error e' =>
        obtain ⟨hnone, hblame⟩ := markerOfPath_eq_error_iff.1 hm
        have hfault : e' = e ↔ Blames root (Text.trim l) e := by
          constructor
          · rintro rfl
            exact hblame
          · intro h
            have he := markerOfPath_eq_error_iff.2 ⟨hnone, h⟩
            exact Except.error.inj (hm.symm.trans he)
        simp [hblank, hne, ofPaths, hm, hfault]

/-! ### Counts -/

theorem encard_setOf_mem {α : Type} {xs : List α} (h : xs.Nodup) :
    {x | x ∈ xs}.encard = xs.length := by
  classical
  rw [← List.toFinset_card_of_nodup h, ← Set.encard_coe_eq_coe_finsetCard, List.coe_toFinset]

/-- An inventory counts each marker once. -/
theorem coe_markerCount (inv : Inventory) : (inv.markerCount : ℕ∞) = {m | m ∈ inv}.encard :=
  (encard_setOf_mem inv.nodup).symm

/-- It counts each task once, however many markers that has. -/
theorem coe_taskCount (inv : Inventory) :
    (inv.taskCount : ℕ∞) = (Marker.task '' {m | m ∈ inv}).encard := by
  have htasks : {t | t ∈ (inv.markers.map Marker.task).eraseDups} =
      Marker.task '' {m | m ∈ inv} := by
    ext t
    exact List.mem_eraseDups.trans List.mem_map
  rw [← htasks, encard_setOf_mem (Plan.nodup_eraseDups _)]
  rfl

/-! ### Listings -/

/-- Two listings show the same lines, in any order and each any number of times, apart from blank
ones. -/
def SameLines (listing listing' : String) : Prop :=
  ∀ line, line ≠ "" →
    (line ∈ (Text.lines listing).map Text.trim ↔ line ∈ (Text.lines listing').map Text.trim)

theorem SameLines.symm {listing' : String} (h : SameLines listing listing') :
    SameLines listing' listing := fun line hne => (h line hne).symm

theorem SameLines.readable {listing' : String} (h : SameLines listing listing')
    (hr : ∀ l ∈ Text.lines listing, Readable root l) :
    ∀ l ∈ Text.lines listing', Readable root l := by
  intro l hl
  by_cases hblank : Text.trim l = ""
  · exact .inl hblank
  · obtain ⟨l', hl', htrim⟩ := List.mem_map.1 ((h _ hblank).2 (List.mem_map_of_mem hl))
    rw [Readable, ← htrim]
    exact hr l' hl'

theorem SameLines.shown_subset {listing' : String} (h : SameLines listing listing') :
    shown root listing ⊆ shown root listing' := by
  rintro m ⟨l, hl, hm⟩
  obtain ⟨l', hl', htrim⟩ := List.mem_map.1 ((h _ hm.ne_empty).1 (List.mem_map_of_mem hl))
  exact ⟨l', hl', htrim ▸ hm⟩

/-- A listing is accepted if every line is readable.  Its inventory then holds the markers that the
lines show and no others, and counts them and their tasks once each.  Another listing with the same
lines in any order, with others repeated and with other blank lines, is accepted too and shows the
same.  If some line is not readable the first of them is refused: for the layout if it does not lie
in a directory of a task below the root, and else for the name of the file.  It makes no difference
at all whether a line ends in a line feed or in a carriage return and a line feed. -/
theorem ofListing_exact (root listing : String) :
    ((∃ inv, ofListing root listing = .ok inv) ↔
      ∀ l ∈ Text.lines listing, Readable root l) ∧
    (∀ inv, ofListing root listing = .ok inv →
      (∀ m, m ∈ inv ↔ m ∈ shown root listing) ∧
      (inv.taskCount : ℕ∞) = (Marker.task '' shown root listing).encard ∧
      (inv.markerCount : ℕ∞) = (shown root listing).encard ∧
      ∀ listing', SameLines listing listing' →
        ∃ inv', ofListing root listing' = .ok inv' ∧ (∀ m, m ∈ inv' ↔ m ∈ inv) ∧
          inv'.taskCount = inv.taskCount ∧ inv'.markerCount = inv.markerCount) ∧
    (∀ e, ofListing root listing = .error e ↔
      ∃ l, FirstUnreadable root (Text.lines listing) l ∧ Blames root (Text.trim l) e) ∧
    ∀ before after, listing = before ++ "\n" ++ after →
      ofListing root (before ++ "\r\n" ++ after) = ofListing root listing := by
  have hcounts : ∀ {listing inv}, ofListing root listing = .ok inv →
      (inv.taskCount : ℕ∞) = (Marker.task '' shown root listing).encard ∧
        (inv.markerCount : ℕ∞) = (shown root listing).encard := by
    intro listing inv h
    have hset : {m | m ∈ inv} = shown root listing := Set.ext fun m => mem_iff_of_ofListing h
    rw [coe_taskCount, coe_markerCount, hset]
    exact ⟨rfl, rfl⟩
  refine ⟨exists_ofListing_iff, fun inv h => ⟨fun m => mem_iff_of_ofListing h, (hcounts h).1,
    (hcounts h).2, fun listing' hsame => ?_⟩, fun e => ofPaths_eq_error_iff, ?_⟩
  · have hreadable := hsame.readable (exists_ofListing_iff.1 ⟨inv, h⟩)
    obtain ⟨inv', h'⟩ := exists_ofListing_iff.2 hreadable
    have hshown : shown root listing' = shown root listing :=
      hsame.symm.shown_subset.antisymm hsame.shown_subset
    have htasks := (hcounts h').1
    have hmarkers := (hcounts h').2
    rw [hshown, ← (hcounts h).1, Nat.cast_inj] at htasks
    rw [hshown, ← (hcounts h).2, Nat.cast_inj] at hmarkers
    refine ⟨inv', h', fun m => ?_, htasks, hmarkers⟩
    rw [mem_iff_of_ofListing h', mem_iff_of_ofListing h, hshown]
  · rintro before after rfl
    rw [ofListing, ofListing, listedPaths_eq, listedPaths_eq, Text.map_trim_lines_return]

deriving instance DecidableEq for Inventory

/-- A marker of a task whose name has a slash. -/
def siteMarker : Marker :=
  ⟨"web/site", "aaaaaaaaaaaaaaaaaaaaaaaaaaaaaaaaaaaaaaaaaaaaaaaaaaaaaaaaaaaaaaaa"⟩

/-- A listing with a blank line and with one that shows this marker. -/
def siteListing : String := "\r\n /c/web/site/" ++ siteMarker.sum ++ "\r\n"

/-- It is accepted below `/c`, and then holds nothing else.  The name of a file that is no checksum
is refused, after a blank line. -/
theorem siteListing_exact :
    (∃ inv, ofListing "/c//" siteListing = .ok inv ∧
      (∀ l ∈ Text.lines siteListing, Readable "/c//" l) ∧
      ∀ m, m ∈ shown "/c//" siteListing ↔ m = siteMarker) ∧
    ∃ l, FirstUnreadable "/c" (Text.lines "\n/c/t/x ") l ∧
      Blames "/c" (Text.trim l) (.corrupt "/c/t/x") := by
  have hok : ofListing "/c//" siteListing = .ok (ofList [siteMarker]) := by decide +kernel
  have herror : ofListing "/c" "\n/c/t/x " = .error (.corrupt "/c/t/x") := by decide +kernel
  refine ⟨⟨_, hok, (ofListing_exact _ _).1.1 ⟨_, hok⟩, fun m => ?_⟩, ?_⟩
  · rw [← ((ofListing_exact _ _).2.1 _ hok).1]
    exact List.mem_singleton
  · exact ((ofListing_exact _ _).2.2.1 _).1 herror

end Inventory

end Provisioning
