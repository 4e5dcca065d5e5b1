import Provisioning.Text.Blank

/-!
# Laws of lines and of trimming

* `Text.lines_join` : texts without line feeds, each followed by one, are the lines of the whole;
* `Text.lines_join_feed` : the lines of texts that end in a line feed are those of each of them;
* `Text.not_mem_lines` : no line holds a line feed;
* `Text.map_trim_lines_return` : trimmed lines do not tell of carriage returns at their ends;
* `Text.mem_trimChars` : trimming takes nothing but blanks;
* `Text.trimChars_eq_self` : a text with no blank at either end stays as it is.
-/

namespace Provisioning

namespace Text

/-! ### Pieces and lines -/

section

variable {α : Type} [BEq α] [LawfulBEq α] {feed : α} {cs rest : List α}

theorem pieces_append (h : feed ∉ cs) :
    pieces feed (cs ++ feed :: rest) = (cs ++ [feed]) :: pieces feed rest := by
  induction cs with
  | nil => simp [pieces]
  | cons c cs ih =>
    have hne : (c == feed) = false := beq_false_of_ne fun hc => h (hc ▸ List.mem_cons_self)
    rw [List.cons_append, pieces, ih fun hc => h (List.mem_cons_of_mem _ hc)]
    simp [hne]

/-- What has no end is one piece, unless there is nothing. -/
theorem pieces_of_not_mem (h : feed ∉ cs) :
    pieces feed cs = if cs.isEmpty then [] else [cs] := by
  induction cs with
  | nil => rfl
  | cons c cs ih =>
    have hne : (c == feed) = false := beq_false_of_ne fun hc => h (hc ▸ List.mem_cons_self)
    rw [pieces, ih fun hc => h (List.mem_cons_of_mem _ hc)]
    cases cs <;> simp [hne]

/-- A piece ends at its line feed, and holds no other. -/
theorem mem_pieces {p : List α} (h : p ∈ pieces feed cs) :
    ∃ q, feed ∉ q ∧ (p = q ∨ p = q ++ [feed]) := by
  induction cs generalizing p with
  | nil => simp [pieces] at h
  | cons c cs ih =>
    rw [pieces] at h
    split at h
    · next hc =>
      rcases List.mem_cons.1 h with rfl | h
      · exact ⟨[], by simp, .inr (by simpa using hc)⟩
      · exact ih h
    · next hc =>
      have hne : feed ≠ c := by
        intro he
        exact hc (beq_iff_eq.2 he.symm)
      split at h
      · simp only [List.mem_singleton] at h
        exact ⟨[c], by simpa using hne, .inl h⟩
      · next q ps hp =>
        rw [hp] at ih
        rcases List.mem_cons.1 h with rfl | h
        · obtain ⟨q', hq, rfl | rfl⟩ := ih List.mem_cons_self
          · exact ⟨c :: q, by simp [hne, hq], .inl rfl⟩
          · exact ⟨c :: q', by simp [hne, hq], .inr rfl⟩
        · exact ih (List.mem_cons_of_mem _ h)

end

theorem chomp_append {cs : List Char} (h : cs.getLast? ≠ some '\r') :
    chomp (cs ++ ['\n']) = cs := by
  rw [chomp, List.reverse_append, List.reverse_singleton, List.singleton_append]
  split
  · next r hr =>
    have hr' : cs.reverse = '\r' :: r := (List.cons.inj hr).2
    exact absurd (by rw [← List.head?_reverse, hr']; rfl) h
  · next r _ hr => rw [← (List.cons.inj hr).2, List.reverse_reverse]
  · next h' => exact absurd rfl (h' cs.reverse)

/-- Texts without line feeds, each followed by one, are the lines of the whole. -/
theorem lines_join {ts : List String} (h : ∀ t ∈ ts, '\n' ∉ t.toList)
    (hr : ∀ t ∈ ts, t.toList.getLast? ≠ some '\r') :
    lines (String.join (ts.map (· ++ "\n"))) = ts := by
  have hfeed : "\n".toList = ['\n'] := rfl
  rw [lines, String.toList_join]
  induction ts with
  | nil => rfl
  | cons t ts ih =>
    simp only [List.mem_cons, forall_eq_or_imp] at h hr
    simp only [List.map_cons, List.flatMap_cons, String.toList_append, hfeed, List.append_assoc,
      List.singleton_append]
    rw [pieces_append h.1, List.map_cons, chomp_append hr.1, ih h.2 hr.2, String.ofList_toList]

/-- What follows a line feed is cut into pieces of its own. -/
theorem pieces_feed_append (cs rest : List Char) :
    pieces '\n' (cs ++ '\n' :: rest) = pieces '\n' (cs ++ ['\n']) ++ pieces '\n' rest := by
  induction cs with
  | nil => simp [pieces]
  | cons c cs ih =>
    rw [List.cons_append, List.cons_append, pieces, pieces, ih]
    by_cases hc : c == '\n'
    · simp [hc]
    · rw [if_neg hc, if_neg hc]
      cases hp : pieces '\n' (cs ++ ['\n']) with
      | nil =>
        -- a text that is not empty has a piece
        have hflat := flatten_pieces '\n' (cs ++ ['\n'])
        rw [hp] at hflat
        simp at hflat
      | cons p ps => rfl

/-- The lines of texts, each followed by a line feed, are those of each of them. -/
theorem lines_join_feed (ts : List String) :
    lines (String.join (ts.map (· ++ "\n"))) = ts.flatMap fun t => lines (t ++ "\n") := by
  have hfeed : "\n".toList = ['\n'] := rfl
  induction ts with
  | nil => rfl
  | cons t ts ih =>
    rw [lines, String.toList_join] at ih
    rw [lines, String.toList_join, List.map_cons, List.flatMap_cons, List.flatMap_cons, ← ih]
    rw [String.toList_append, hfeed, List.append_assoc, List.singleton_append, pieces_feed_append,
      List.map_append, lines, String.toList_append, hfeed]

theorem mem_of_mem_chomp {c : Char} {p : List Char} (h : c ∈ chomp p) : c ∈ p := by
  rw [chomp] at h
  split at h
  · next r hr => exact List.mem_reverse.1 (hr ▸ by simp [List.mem_reverse.1 h])
  · next r _ hr => exact List.mem_reverse.1 (hr ▸ by simp [List.mem_reverse.1 h])
  · exact h

theorem mem_chomp {c : Char} {p : List Char} (h : c ∈ p) (hn : c ≠ '\n') (hr : c ≠ '\r') :
    c ∈ chomp p := by
  rw [chomp]
  split
  · next r he =>
    have : c ∈ '\n' :: '\r' :: r := he ▸ List.mem_reverse.2 h
    simpa [hn, hr] using this
  · next r _ he =>
    have : c ∈ '\n' :: r := he ▸ List.mem_reverse.2 h
    simpa [hn] using this
  · exact h

/-- No line holds a line feed. -/
theorem not_mem_lines {s l : String} (h : l ∈ lines s) : '\n' ∉ l.toList := by
  obtain ⟨p, hp, rfl⟩ := List.mem_map.1 h
  obtain ⟨q, hq, rfl | rfl⟩ := mem_pieces hp
  · intro hm
    exact hq (mem_of_mem_chomp (by simpa using hm))
  · intro hm
    rw [String.toList_ofList, chomp, List.reverse_append, List.reverse_singleton,
      List.singleton_append] at hm
    split at hm
    · next r hr =>
      have hr' : q.reverse = '\r' :: r := (List.cons.inj hr).2
      exact hq (List.mem_reverse.1 (hr' ▸ List.mem_cons_of_mem _ (List.mem_reverse.1 hm)))
    · next r _ hr =>
      exact hq (List.mem_reverse.1 ((List.cons.inj hr).2 ▸ List.mem_reverse.1 hm))
    · next h' => exact h' q.reverse rfl

/-- Every character but those that end lines stands in a line. -/
theorem exists_mem_lines {s : String} {c : Char} (h : c ∈ s.toList) (hn : c ≠ '\n')
    (hr : c ≠ '\r') : ∃ l ∈ lines s, c ∈ l.toList := by
  rw [← flatten_pieces '\n' s.toList, List.mem_flatten] at h
  obtain ⟨p, hp, hc⟩ := h
  exact ⟨_, List.mem_map_of_mem hp, by simpa using mem_chomp hc hn hr⟩

/-! ### Trimming -/

theorem mem_dropWhile {c : Char} {p : Char → Bool} {cs : List Char} (h : c ∈ cs)
    (hc : p c = false) : c ∈ cs.dropWhile p := by
  rw [← List.takeWhile_append_dropWhile (p := p) (l := cs), List.mem_append] at h
  refine h.resolve_left fun hm => ?_
  have := List.all_takeWhile (l := cs) (p := p)
  rw [List.all_eq_true.1 this c hm] at hc
  exact absurd hc (by simp)

/-- Trimming takes nothing but blanks. -/
theorem mem_trimChars {c : Char} {cs : List Char} (h : c ∈ cs) (hc : isBlank c = false) :
    c ∈ trimChars cs := by
  rw [trimChars, dropWhileEnd, List.mem_reverse]
  exact mem_dropWhile (List.mem_reverse.2 (mem_dropWhile h hc)) hc

theorem mem_of_mem_trimChars {c : Char} {cs : List Char} (h : c ∈ trimChars cs) : c ∈ cs := by
  rw [trimChars, dropWhileEnd, List.mem_reverse] at h
  have := (List.dropWhile_sublist _).subset h
  exact (List.dropWhile_sublist _).subset (List.mem_reverse.1 this)

/-- A trimmed text begins with no blank. -/
theorem isBlank_of_head?_trimChars {c : Char} {cs : List Char}
    (h : (trimChars cs).head? = some c) : isBlank c = false := by
  rw [trimChars, dropWhileEnd, List.head?_reverse] at h
  generalize hd : cs.dropWhile isBlank = ds at h
  cases ds with
  | nil => simp at h
  | cons d ds =>
    have hblank : isBlank d = false := by
      have := List.head?_dropWhile_not isBlank cs
      rw [hd] at this
      simpa using this
    -- dropping blanks at the end leaves a first character that is none
    have hlast : ((d :: ds).reverse.dropWhile isBlank).getLast? = some d := by
      rw [List.reverse_cons, List.dropWhile_append]
      split
      · simp [hblank]
      · simp
    rw [hlast] at h
    exact Option.some.inj h ▸ hblank

theorem trimChars_concat {c : Char} (h : isBlank c) (cs : List Char) :
    trimChars (cs ++ [c]) = trimChars cs := by
  rw [trimChars, trimChars, List.dropWhile_append]
  split
  · next hall => simp [h, List.isEmpty_iff.1 hall]
  · simp [dropWhileEnd, h]

/-- Trimming takes the end of a line along. -/
theorem trimChars_chomp (p : List Char) : trimChars (chomp p) = trimChars p := by
  have hfeed : isBlank '\n' := by decide
  have hreturn : isBlank '\r' := by decide
  rw [chomp]
  split
  · next r hr =>
    have hp : p = r.reverse ++ ['\r'] ++ ['\n'] := by
      simpa using congrArg List.reverse hr
    rw [hp, trimChars_concat hfeed, trimChars_concat hreturn]
  · next r _ hr =>
    have hp : p = r.reverse ++ ['\n'] := by
      simpa using congrArg List.reverse hr
    rw [hp, trimChars_concat hfeed]
  · rfl

theorem map_trim_lines (s : String) :
    (lines s).map trim = (pieces '\n' s.toList).map fun p => String.ofList (trimChars p) := by
  rw [lines, List.map_map]
  exact List.map_congr_left fun p _ => by simp [trim, trimChars_chomp]

/-- Trimmed lines do not tell whether there is a carriage return before a line feed. -/
theorem map_trim_lines_return (a b : String) :
    (lines (a ++ "\r\n" ++ b)).map trim = (lines (a ++ "\n" ++ b)).map trim := by
  have hreturn : isBlank '\r' := by decide
  have hlast : ∀ q : List Char, '\n' ∉ q →
      (pieces '\n' (q ++ '\r' :: '\n' :: b.toList)).map trimChars =
        (pieces '\n' (q ++ '\n' :: b.toList)).map trimChars := by
    intro q hq
    have hq' : '\n' ∉ q ++ ['\r'] := by simpa using hq
    have happend : q ++ '\r' :: '\n' :: b.toList = (q ++ ['\r']) ++ '\n' :: b.toList := by simp
    have hfeed : isBlank '\n' := by decide
    rw [happend, pieces_append hq', pieces_append hq, List.map_cons, List.map_cons,
      trimChars_concat hfeed, trimChars_concat hreturn, trimChars_concat hfeed]
  have hchars : (pieces '\n' (a.toList ++ '\r' :: '\n' :: b.toList)).map trimChars =
      (pieces '\n' (a.toList ++ '\n' :: b.toList)).map trimChars := by
    by_cases ha : '\n' ∈ a.toList
    · -- only the last line of the first part is concerned
      obtain ⟨r, before, hr, hq⟩ := List.eq_append_cons_of_mem (List.mem_reverse.2 ha)
      have ha' : a.toList = before.reverse ++ '\n' :: r.reverse := by
        simpa using congrArg List.reverse hr
      rw [ha', List.append_assoc, List.append_assoc, List.cons_append, List.cons_append,
        pieces_feed_append, List.map_append, hlast _ (by simpa using hq), ← List.map_append,
        ← pieces_feed_append]
    · exact hlast _ ha
  simpa [map_trim_lines, Function.comp_def] using congrArg (List.map String.ofList) hchars

/-- A text with no blank at either end stays as it is. -/
theorem trimChars_eq_self {cs : List Char} (hh : ∀ c, cs.head? = some c → isBlank c = false)
    (hl : ∀ c, cs.getLast? = some c → isBlank c = false) : trimChars cs = cs := by
  have hstart : cs.dropWhile isBlank = cs := by
    cases cs with
    | nil => rfl
    | cons c cs => simp [hh c rfl]
  have hend : cs.reverse.dropWhile isBlank = cs.reverse := by
    cases hr : cs.reverse with
    | nil => rfl
    | cons c r =>
      have : cs.getLast? = some c := by rw [← List.head?_reverse, hr]; rfl
      simp [hl c this]
  rw [trimChars, hstart, dropWhileEnd, hend, List.reverse_reverse]

end Text

end Provisioning
