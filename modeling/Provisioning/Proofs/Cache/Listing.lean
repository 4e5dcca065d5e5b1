import Provisioning.Proofs.Cache.Store
import Provisioning.Proofs.Text.Lines
import Provisioning.Proofs.Text.Search

/-!
# What a listing tells of the markers

A host lists its markers of success by their paths, one a line and in any order (`Files.Lists`).
If such a listing is accepted at all, the inventory read off it knows of every task exactly the
checksums under which the host has a marker (`Inventory.mem_sums_of_ofListing`), whatever the root
of the cache is called: a root that a line cannot show makes every listing with a marker fail.

* `Inventory.markerOfPath_eq_ok_iff` : the paths that stand for a marker;
* `Inventory.mem_ofPaths` : the inventory holds the markers of all paths, and no others;
* `Inventory.exists_ofListing` : a listing of readable paths is accepted;
* `Inventory.exists_ofListing_of_lists` : the order of a listing does not matter.
-/

namespace Provisioning

/-! ### Listings -/

namespace Files

/-- Whether a path is one that the listing shows. -/
def IsListed (p : String) : Prop := Mark.success.ending <:+ p.toList

/-- All that is listed lies below the root of the cache, and its path below the root has no line
feed. -/
def Below (root : String) (fs : Files) : Prop :=
  ∀ p ∈ fs, IsListed p → ∃ rest, p.toList = Cache.bareRoot root ++ '/' :: rest ∧ '\n' ∉ rest

/-- A text is a listing of the markers of success. -/
def Lists (fs : Files) (listing : String) : Prop :=
  ∃ paths : List String, (∀ p, p ∈ paths ↔ p ∈ fs ∧ IsListed p) ∧
    listing = String.join (paths.map (· ++ "\n"))

/-- Every listing reports each marker of success at its path: among what the lines of the listing
are read as is the path itself. -/
def Legible (fs : Files) : Prop :=
  ∀ listing, fs.Lists listing → ∀ p ∈ fs, IsListed p → p.toList ∈ Inventory.listedPaths listing

theorem IsListed.isMarker {p : String} (h : IsListed p) : IsMarker p := ⟨.success, h⟩

/-- Markers of success are listed. -/
theorem isListed_success (dir sum : String) : IsListed (Mark.success.path dir sum) :=
  ⟨_, (Mark.toList_path .success dir sum).symm⟩

/-- Markers of failure are not listed. -/
theorem not_isListed_failure (dir sum : String) : ¬ IsListed (Mark.failure.path dir sum) := by
  rintro ⟨pre, h⟩
  have hlast := Mark.getLast?_path .failure dir sum
  rw [← h] at hlast
  simp [Mark.ending, List.getLast?_append] at hlast

/-- A listing shows nothing but markers. -/
theorem Lists.of_markers_eq {fs fs' : Files} {listing : String} (h : fs.Lists listing)
    (hm : fs.markers = fs'.markers) : fs'.Lists listing := by
  obtain ⟨paths, hpaths, rfl⟩ := h
  refine ⟨paths, fun p => ?_, rfl⟩
  have : p ∈ fs.markers ↔ p ∈ fs'.markers := by rw [hm]
  rw [hpaths]
  exact and_congr_left fun hp => by simpa [markers, hp.isMarker] using this

end Files

/-- A root whose paths stand in a line as they are. -/
def Cache.Legible (root : String) : Prop :=
  '\n' ∉ bareRoot root ∧ ∀ c, (bareRoot root ++ ['/']).head? = some c → Text.isBlank c = false

namespace Inventory

variable {root listing : String} {fs : Files}

/-! ### Paths and markers -/

theorem slashless_of_isChecksum {cs : List Char} (h : isChecksum cs) : '/' ∉ cs := by
  intro hm
  rw [isChecksum, Bool.and_eq_true, List.all_eq_true] at h
  exact absurd (h.2 _ hm) (by decide)

theorem length_of_isChecksum {cs : List Char} (h : isChecksum cs) : cs.length = 64 := by
  rw [isChecksum, Bool.and_eq_true, beq_iff_eq] at h
  exact h.1

theorem not_isChecksum_of_suffix {cs : List Char} (h : Mark.success.ending <:+ cs) :
    isChecksum cs = false := by
  refine Bool.eq_false_iff.2 fun hc => ?_
  rw [isChecksum, Bool.and_eq_true, List.all_eq_true] at hc
  exact absurd (hc.2 '.' (h.subset (by decide))) (by decide)

/-- A path stands for a marker if below the root come the task, a slash and the checksum, with or
without the ending of markers. -/
theorem markerOfPath_eq_ok_iff {path : List Char} {m : Marker} :
    markerOfPath root path = .ok m ↔
      ∃ file, path = Cache.bareRoot root ++ '/' :: (m.task.toList ++ '/' :: file) ∧ '/' ∉ file ∧
        m.task ≠ "" ∧ isChecksum m.sum.toList ∧
        m.sum.toList = (Text.dropTail? ".done".toList file).getD file := by
  have htask : ∀ {t : List Char}, t ≠ [] → String.ofList t ≠ "" := fun ht he => by
    have := congrArg String.toList he
    exact ht (by simpa using this)
  constructor
  · intro h
    rw [markerOfPath] at h
    split at h
    · simp at h
    · simp at h
    · next task file hne hcut =>
      have hne : task ≠ [] := by
        intro he
        exact hne he
      obtain ⟨below, hlead, hlast⟩ := Option.bind_eq_some_iff.1 hcut
      rw [Text.dropLead?_eq_some_iff] at hlead
      obtain ⟨rfl, hfile⟩ := Text.cutLast_eq_some_iff.1 hlast
      simp only at h
      split at h
      · next hsum =>
        obtain rfl := Except.ok.inj h
        refine ⟨file, by simpa using hlead, hfile, htask hne, ?_, ?_⟩
        · simpa using hsum
        · simp
      · simp at h
  · rintro ⟨file, rfl, hfile, hne, hsum, heq⟩
    have hlead : Text.dropLead? (Cache.bareRoot root ++ ['/'])
        (Cache.bareRoot root ++ '/' :: (m.task.toList ++ '/' :: file)) =
          some (m.task.toList ++ '/' :: file) := Text.dropLead?_eq_some_iff.2 (by simp)
    have hlast : Text.cutLast '/' (m.task.toList ++ '/' :: file) = some (m.task.toList, file) :=
      Text.cutLast_eq_some_iff.2 ⟨rfl, hfile⟩
    rw [markerOfPath, hlead, Option.bind_some, hlast]
    split
    · simp_all
    · next h =>
      simp only [Option.some.injEq, Prod.mk.injEq] at h
      exact absurd (String.toList_inj.1 (h.1.trans rfl)) hne
    · next task file' _ h =>
      simp only [Option.some.injEq, Prod.mk.injEq] at h
      obtain ⟨rfl, rfl⟩ := h
      simp only [← heq, hsum, if_true, String.ofList_toList]

/-- The path of a marker of success stands for that marker. -/
theorem markerOfPath_path {t s : String} (ht : t ≠ "") (hs : isChecksum s.toList) :
    markerOfPath root (Mark.success.path (Cache.taskDir root t) s).toList = .ok ⟨t, s⟩ := by
  rw [markerOfPath_eq_ok_iff]
  refine ⟨s.toList ++ Mark.success.ending, ?_, ?_, ht, hs, ?_⟩
  · simp [Mark.toList_path, Cache.toList_taskDir]
  · rw [List.mem_append, not_or]
    exact ⟨slashless_of_isChecksum hs, by decide⟩
  · have htail : Text.dropTail? ".done".toList (s.toList ++ Mark.success.ending) = some s.toList :=
      Text.dropTail?_eq_some_iff.2 rfl
    rw [htail]
    rfl

/-- A listed path that stands for a marker is the path of that marker. -/
theorem eq_path_of_markerOfPath {p : String} {m : Marker} (hp : Files.IsListed p)
    (h : markerOfPath root p.toList = .ok m) :
    p = Mark.success.path (Cache.taskDir root m.task) m.sum ∧ Slashless m.sum := by
  obtain ⟨file, heq, hfile, -, hsum, hs⟩ := markerOfPath_eq_ok_iff.1 h
  have hsuffix : file <:+ p.toList := by
    rw [heq]
    exact ⟨Cache.bareRoot root ++ '/' :: (m.task.toList ++ ['/']), by simp⟩
  cases htail : Text.dropTail? ".done".toList file with
  | some r =>
    rw [htail, Option.getD_some] at hs
    rw [Text.dropTail?_eq_some_iff, ← hs] at htail
    refine ⟨String.toList_inj.1 ?_, slashless_of_isChecksum hsum⟩
    rw [heq, htail, Mark.toList_path, Cache.toList_taskDir]
    simp [Mark.ending]
  | none =>
    -- the name of a file as long as a checksum has room for the ending
    rw [htail, Option.getD_none] at hs
    have hlen : Mark.success.ending.length ≤ file.length := by
      rw [← hs, length_of_isChecksum hsum]
      decide
    have := List.suffix_of_suffix_length_le hp hsuffix hlen
    rw [hs, not_isChecksum_of_suffix this] at hsum
    exact absurd hsum (by simp)

theorem path_inj_of_slashless_sum {t t' s s' : String} (hs : Slashless s) (hs' : Slashless s')
    (h : Mark.success.path (Cache.taskDir root t) s =
      Mark.success.path (Cache.taskDir root t') s') :
    t = t' ∧ s = s' := by
  have hl := congrArg String.toList h
  simp only [Mark.toList_path, Cache.toList_taskDir] at hl
  have hl := List.append_cancel_right hl
  simp only [List.append_assoc, List.append_cancel_left_eq, List.cons_append, List.cons.injEq,
    true_and] at hl
  have hcut := Text.cutLast_eq_some_iff.2 ⟨hl, hs'⟩
  rw [Text.cutLast_eq_some_iff.2 ⟨rfl, hs⟩] at hcut
  simpa [String.toList_inj] using hcut

/-! ### Inventories of paths -/

theorem exists_of_ofPaths {inv inv' : Inventory} {paths : List (List Char)}
    (h : ofPaths root inv paths = .ok inv') : ∀ p ∈ paths, ∃ m, markerOfPath root p = .ok m := by
  induction paths generalizing inv with
  | nil => simp
  | cons path paths ih =>
    rw [ofPaths] at h
    split at h
    · simp at h
    · next m hm =>
      rw [List.forall_mem_cons]
      exact ⟨⟨m, hm⟩, ih h⟩

/-- The inventory of some paths holds the markers of all of them, and no others but those it held
before. -/
theorem mem_ofPaths {inv inv' : Inventory} {paths : List (List Char)}
    (h : ofPaths root inv paths = .ok inv') (m : Marker) :
    m ∈ inv' ↔ m ∈ inv ∨ ∃ p ∈ paths, markerOfPath root p = .ok m := by
  induction paths generalizing inv with
  | nil =>
    rw [← Except.ok.inj h]
    simp
  | cons path paths ih =>
    rw [ofPaths] at h
    split at h
    · simp at h
    · next m' hm =>
      rw [ih h, mem_insert, or_assoc]
      simp [hm, eq_comm]

/-- An inventory that was listed tells of no checksum that has a slash. -/
theorem slashless_of_ofListing {inv : Inventory} (h : ofListing root listing = .ok inv)
    {m : Marker} (hm : m ∈ inv) : Slashless m.sum := by
  rcases (mem_ofPaths h m).1 hm with hnone | ⟨p, -, hp⟩
  · exact absurd hnone (not_mem_empty m)
  · obtain ⟨file, -, -, -, hsum, -⟩ := markerOfPath_eq_ok_iff.1 hp
    exact slashless_of_isChecksum hsum

theorem exists_ofPaths {paths : List (List Char)}
    (h : ∀ p ∈ paths, ∃ m, markerOfPath root p = .ok m) (inv : Inventory) :
    ∃ inv', ofPaths root inv paths = .ok inv' := by
  induction paths generalizing inv with
  | nil => exact ⟨inv, rfl⟩
  | cons path paths ih =>
    rw [List.forall_mem_cons] at h
    obtain ⟨m, hm⟩ := h.1
    obtain ⟨inv', h'⟩ := ih h.2 (inv.insert m)
    exact ⟨inv', by rw [ofPaths, hm]; exact h'⟩

/-! ### Inventories of listings -/

theorem mem_listedPaths {path : List Char} (h : path ∈ listedPaths listing) :
    path ≠ [] ∧ ∃ l ∈ Text.lines listing, path = Text.trimChars l.toList := by
  rw [listedPaths, List.mem_filter, List.mem_map] at h
  obtain ⟨⟨l, hl, rfl⟩, hne⟩ := h
  exact ⟨by simpa using hne, l, hl, rfl⟩

/-- What a line is read as has no line feed. -/
theorem not_feed_of_mem_listedPaths {path : List Char} (h : path ∈ listedPaths listing) :
    '\n' ∉ path := by
  obtain ⟨-, l, hl, rfl⟩ := mem_listedPaths h
  exact fun hn => Text.not_mem_lines hl (Text.mem_of_mem_trimChars hn)

/-- If some line is read as a path below the root, then lines can show the root. -/
theorem legible_of_mem_listedPaths {rest : List Char}
    (h : Cache.bareRoot root ++ '/' :: rest ∈ listedPaths listing) : Cache.Legible root := by
  constructor
  · exact fun hn => not_feed_of_mem_listedPaths h (List.mem_append_left _ hn)
  · intro c hc
    obtain ⟨-, l, -, hpath⟩ := mem_listedPaths h
    have hhead : (Text.trimChars l.toList).head? = some c := by
      rw [← hpath, List.append_cons, List.head?_append, hc]
      rfl
    exact Text.isBlank_of_head?_trimChars hhead

/-- A listing that is accepted and not empty shows that lines can show the root. -/
theorem legible_of_ofListing {inv : Inventory} {path : List Char}
    (h : ofListing root listing = .ok inv) (hp : path ∈ listedPaths listing) :
    Cache.Legible root := by
  obtain ⟨m, hm⟩ := exists_of_ofPaths h path hp
  obtain ⟨file, rfl, -⟩ := markerOfPath_eq_ok_iff.1 hm
  exact legible_of_mem_listedPaths hp

variable {paths : List String}

/-- Where lines can show the root, the listed paths are read as they are. -/
theorem listedPaths_join (hroot : Cache.Legible root)
    (hb : ∀ p ∈ paths, ∃ rest, p.toList = Cache.bareRoot root ++ '/' :: rest ∧ '\n' ∉ rest)
    (hd : ∀ p ∈ paths, Files.IsListed p) :
    listedPaths (String.join (paths.map (· ++ "\n"))) = paths.map String.toList := by
  have hlast : ∀ p ∈ paths, p.toList.getLast? = some 'e' := by
    intro p hp
    obtain ⟨pre, h⟩ := hd p hp
    rw [← h]
    simp [Mark.ending, List.getLast?_append]
  have htrim : ∀ p ∈ paths, Text.trimChars p.toList = p.toList := by
    intro p hp
    refine Text.trimChars_eq_self (fun c hc => hroot.2 c ?_) fun c hc => ?_
    · obtain ⟨rest, h, -⟩ := hb p hp
      rw [h, List.append_cons, List.head?_append] at hc
      rcases Option.or_eq_some_iff.1 hc with hc | ⟨hn, -⟩
      · exact hc
      · simp at hn
    · rw [hlast p hp] at hc
      obtain rfl := Option.some.inj hc
      decide
  have hfeed : ∀ p ∈ paths, '\n' ∉ p.toList := by
    intro p hp
    obtain ⟨rest, h, hrest⟩ := hb p hp
    rw [h]
    simpa [hroot.1] using hrest
  rw [listedPaths, Text.lines_join hfeed fun p hp => by rw [hlast p hp]; decide,
    List.map_congr_left htrim, List.filter_eq_self]
  intro cs hcs
  obtain ⟨p, hp, rfl⟩ := List.mem_map.1 hcs
  have := hlast p hp
  cases h : p.toList with
  | nil => simp [h] at this
  | cons => rfl

/-- A listing of some path is not empty. -/
theorem exists_mem_listedPaths {p : String} (hp : p ∈ paths) (hd : Files.IsListed p) :
    ∃ path, path ∈ listedPaths (String.join (paths.map (· ++ "\n"))) := by
  have he : 'e' ∈ (String.join (paths.map (· ++ "\n"))).toList := by
    rw [String.toList_join, List.mem_flatMap]
    refine ⟨_, List.mem_map_of_mem hp, ?_⟩
    rw [String.toList_append, List.mem_append]
    exact .inl (hd.subset (by decide))
  obtain ⟨l, hl, hc⟩ := Text.exists_mem_lines he (by decide) (by decide)
  have hmem := Text.mem_trimChars hc (by decide)
  refine ⟨Text.trimChars l.toList, List.mem_filter.2 ⟨List.mem_map_of_mem hl, ?_⟩⟩
  cases h : Text.trimChars l.toList with
  | nil => simp [h] at hmem
  | cons => rfl

/-- An inventory knows of every task exactly the checksums under which the host has a marker. -/
theorem mem_sums_of_ofListing {inv : Inventory} (hb : fs.Below root) (hl : fs.Lists listing)
    (h : ofListing root listing = .ok inv) (t s : String) :
    s ∈ inv.sums t ↔ s ∈ fs.sums root .success t := by
  obtain ⟨paths, hpaths, rfl⟩ := hl
  have hd : ∀ p ∈ paths, Files.IsListed p := by
    intro p hp
    exact ((hpaths p).1 hp).2
  have hbelow := fun p hp => hb p ((hpaths p).1 hp).1 (hd p hp)
  rw [mem_sums, mem_ofPaths h]
  constructor
  · rintro (hm | ⟨path, hpath, hm⟩)
    · exact absurd hm (not_mem_empty _)
    · rw [listedPaths_join (legible_of_ofListing h hpath) hbelow hd, List.mem_map] at hpath
      obtain ⟨p, hp, rfl⟩ := hpath
      obtain ⟨rfl, hs⟩ := eq_path_of_markerOfPath (hd p hp) hm
      exact ⟨hs, ((hpaths _).1 hp).1⟩
  · rintro ⟨hs, hfile⟩
    have hlisted := Files.isListed_success (Cache.taskDir root t) s
    have hp := (hpaths _).2 ⟨hfile, hlisted⟩
    obtain ⟨path, hpath⟩ := exists_mem_listedPaths hp hlisted
    have hread := listedPaths_join (legible_of_ofListing h hpath) hbelow hd
    have hmem : (Mark.success.path (Cache.taskDir root t) s).toList ∈
        listedPaths (String.join (paths.map (· ++ "\n"))) := hread ▸ List.mem_map_of_mem hp
    obtain ⟨m, hm⟩ := exists_of_ofPaths h _ hmem
    obtain ⟨heq, hs'⟩ := eq_path_of_markerOfPath hlisted hm
    obtain ⟨rfl, rfl⟩ := path_inj_of_slashless_sum hs hs' heq
    exact .inr ⟨_, hmem, hm⟩

/-- A listing is accepted if lines can show the root and all that is listed is a marker. -/
theorem exists_ofListing (hroot : Cache.Legible root) (hb : fs.Below root) (hl : fs.Lists listing)
    (hm : ∀ p ∈ fs, Files.IsListed p → ∃ m, markerOfPath root p.toList = .ok m) :
    ∃ inv, ofListing root listing = .ok inv := by
  obtain ⟨paths, hpaths, rfl⟩ := hl
  have hd : ∀ p ∈ paths, p ∈ fs ∧ Files.IsListed p := by
    intro p hp
    exact (hpaths p).1 hp
  refine exists_ofPaths ?_ ∅
  rw [listedPaths_join hroot (fun p hp => hb p (hd p hp).1 (hd p hp).2) fun p hp => (hd p hp).2]
  intro path hpath
  obtain ⟨p, hp, rfl⟩ := List.mem_map.1 hpath
  exact hm p (hd p hp).1 (hd p hp).2

/-- All that an accepted listing shows is a marker. -/
theorem exists_marker_of_ofListing {inv : Inventory} (hb : fs.Below root) (hl : fs.Lists listing)
    (h : ofListing root listing = .ok inv) {p : String} (hp : p ∈ fs) (hd : Files.IsListed p) :
    ∃ m, markerOfPath root p.toList = .ok m := by
  obtain ⟨paths, hpaths, rfl⟩ := hl
  have hmem := (hpaths p).2 ⟨hp, hd⟩
  obtain ⟨path, hpath⟩ := exists_mem_listedPaths hmem hd
  have hread := listedPaths_join (legible_of_ofListing h hpath)
    (fun p hp => hb p ((hpaths p).1 hp).1 ((hpaths p).1 hp).2) fun p hp => ((hpaths p).1 hp).2
  exact exists_of_ofPaths h _ (hread ▸ List.mem_map_of_mem hmem)

/-- Where lines can show the root and what lies below, every marker is reported at its path. -/
theorem legible_of_below (hroot : Cache.Legible root) (hb : fs.Below root) : fs.Legible := by
  rintro listing ⟨paths, hpaths, rfl⟩ p hp hd
  have hbelow := fun q hq => hb q ((hpaths q).1 hq).1 ((hpaths q).1 hq).2
  rw [listedPaths_join hroot hbelow fun q hq => ((hpaths q).1 hq).2]
  exact List.mem_map_of_mem ((hpaths p).2 ⟨hp, hd⟩)

/-- Where every marker is reported at its path and the listing is accepted, all markers lie below
the root. -/
theorem below_of_ofListing {inv : Inventory} (hfs : fs.Legible) (hl : fs.Lists listing)
    (h : ofListing root listing = .ok inv) : fs.Below root := by
  intro p hp hd
  have hmem := hfs listing hl p hp hd
  obtain ⟨m, hm⟩ := exists_of_ofPaths h _ hmem
  obtain ⟨file, heq, -⟩ := markerOfPath_eq_ok_iff.1 hm
  refine ⟨_, heq, fun hn => not_feed_of_mem_listedPaths hmem ?_⟩
  rw [heq]
  exact List.mem_append_right _ (List.mem_cons_of_mem _ hn)

/-! ### Several listings of the same files -/

/-- The paths in a listing are those that the lines of each listed path come to. -/
theorem mem_listedPaths_join {path : List Char} :
    path ∈ listedPaths (String.join (paths.map (· ++ "\n"))) ↔
      ∃ p ∈ paths, path ∈ listedPaths (p ++ "\n") := by
  simp only [listedPaths, Text.lines_join_feed, List.mem_filter, List.mem_map, List.mem_flatMap]
  constructor
  · rintro ⟨⟨l, ⟨p, hp, hl⟩, rfl⟩, hne⟩
    exact ⟨p, hp, ⟨l, hl, rfl⟩, hne⟩
  · rintro ⟨p, hp, ⟨l, hl, rfl⟩, hne⟩
    exact ⟨⟨l, ⟨p, hp, hl⟩, rfl⟩, hne⟩

/-- Two listings of the same files show the same paths, though perhaps in another order. -/
theorem mem_listedPaths_iff {listing' : String} (hl : fs.Lists listing) (hl' : fs.Lists listing')
    {path : List Char} : path ∈ listedPaths listing ↔ path ∈ listedPaths listing' := by
  obtain ⟨paths, hpaths, rfl⟩ := hl
  obtain ⟨paths', hpaths', rfl⟩ := hl'
  rw [mem_listedPaths_join, mem_listedPaths_join]
  refine exists_congr fun p => and_congr_left fun _ => ?_
  rw [hpaths, hpaths']

/-- If one of two listings of the same files is accepted so is the other, and their inventories
hold the same markers. -/
theorem exists_ofListing_of_lists {listing' : String} {inv : Inventory} (hl : fs.Lists listing)
    (hl' : fs.Lists listing') (h : ofListing root listing = .ok inv) :
    ∃ inv', ofListing root listing' = .ok inv' ∧ ∀ m, m ∈ inv' ↔ m ∈ inv := by
  have hpaths : ∀ path, path ∈ listedPaths listing' ↔ path ∈ listedPaths listing :=
    fun path => mem_listedPaths_iff hl' hl
  obtain ⟨inv', h'⟩ : ∃ inv', ofPaths root ∅ (listedPaths listing') = .ok inv' :=
    exists_ofPaths (fun p hp => exists_of_ofPaths h p ((hpaths p).1 hp)) ∅
  refine ⟨inv', h', fun m => ?_⟩
  rw [mem_ofPaths h, mem_ofPaths h']
  simp only [hpaths]

end Inventory

end Provisioning
