import Provisioning.Proofs.Shell.Layers

/-!
# The lines of a script

A line of a script ends at a line feed that stands neither in quotes nor right after a backslash.
Lines put together from words and operators are read back as they were put together: what a word
holds ends no line, and no word before its blank.

* `Shell.join_lines` : nothing is lost when a script is cut into lines;
* `Shell.tokens_eq_lines` : a script is read line by line;
* `Shell.lines_join` : whole lines with line feeds between them are the lines of the script;
* `Shell.tokens_line`, `Shell.isWhole_line` : what is read of a line, and that it is whole;
* `Shell.exposed_line` : what of it stands outside quotes.
-/

namespace Provisioning

namespace Shell

/-! ### Cutting a script -/

/-- Whether the next character stands for itself, whatever it is. -/
def Lexing.isShielded : Lexing → Bool
  | quoted _ | escaped _ => true
  | _ => false

/-- The lines of the rest of a script. -/
def linesFrom : Lexing → List Char → List (List Char)
  | _, [] => [[]]
  | m, c :: cs =>
    if c = '\n' ∧ m.isShielded = false then [] :: linesFrom .between cs
    else
      match linesFrom (m.step c).2 cs with
      | [] => [[c]]
      | l :: ls => (c :: l) :: ls

/-- The lines of a script, without the line feeds at their ends. -/
def lines (script : String) : List String :=
  (linesFrom .between script.toList).map String.ofList

theorem linesFrom_ne_nil (m : Lexing) (cs : List Char) : linesFrom m cs ≠ [] := by
  cases cs with
  | nil => simp [linesFrom]
  | cons c cs =>
    rw [linesFrom]
    split
    · simp
    · split <;> simp

theorem exposed_cons (m : Lexing) (c : Char) (cs : List Char) :
    exposed m (c :: cs) =
      if m.isShielded then exposed (m.step c).2 cs else c :: exposed (m.step c).2 cs := by
  cases m <;> rfl

theorem exposed_append (m : Lexing) (cs rest : List Char) :
    exposed m (cs ++ rest) = exposed m cs ++ exposed (m.run cs).2 rest := by
  induction cs generalizing m with
  | nil => simp [exposed, Lexing.run]
  | cons c cs ih =>
    rw [List.cons_append, exposed_cons, exposed_cons, ih, Lexing.run]
    split <;> rfl

/-- A line feed that ends a line completes what is under way. -/
theorem step_feed {m : Lexing} (h : m.isShielded = false) :
    m.step '\n' = (m.close, .operator '\n') := by
  cases m with
  | quoted w => cases h
  | escaped w => cases h
  | _ => simp [Lexing.step, Lexing.start, Lexing.close, separates, isOperator]

theorem lex_operator_feed (cs : List Char) :
    lex (.operator '\n') cs = .operator ['\n'] :: lex .between cs := by
  cases cs with
  | nil => rfl
  | cons c cs =>
    have hsingle : ¬ ('\n' = c ∧ c ≠ '\n') := fun h => h.2 h.1.symm
    simp only [lex, Lexing.step, if_neg hsingle, List.singleton_append, List.nil_append]

theorem lex_eq_linesFrom (m : Lexing) (cs : List Char) :
    ∃ l ls, linesFrom m cs = l :: ls ∧
      lex m cs = lex m l ++ ls.flatMap fun l => .operator ['\n'] :: lex .between l := by
  induction cs generalizing m with
  | nil => exact ⟨[], [], rfl, by simp⟩
  | cons c cs ih =>
    rw [linesFrom]
    split
    · next h =>
      obtain ⟨rfl, hm⟩ := h
      obtain ⟨l, ls, hcut, hlex⟩ := ih .between
      have hfeed : lex m ('\n' :: cs) = m.close ++ .operator ['\n'] :: lex .between cs := by
        rw [lex, step_feed hm, lex_operator_feed]
      exact ⟨[], l :: ls, by rw [hcut], by rw [hfeed, hlex, lex, List.flatMap_cons]; rfl⟩
    · obtain ⟨l, ls, hcut, hlex⟩ := ih (m.step c).2
      exact ⟨c :: l, ls, by rw [hcut], by rw [lex, hlex, lex, List.append_assoc]⟩

/-- Nothing is lost when a script is cut. -/
theorem intercalate_linesFrom (m : Lexing) (cs : List Char) :
    List.intercalate ['\n'] (linesFrom m cs) = cs := by
  induction cs generalizing m with
  | nil => rfl
  | cons c cs ih =>
    rw [linesFrom]
    split
    · next h =>
      have hrest := ih .between
      cases hcut : linesFrom .between cs with
      | nil => exact absurd hcut (linesFrom_ne_nil _ _)
      | cons l ls =>
        rw [hcut] at hrest
        simp [hrest, h.1]
    · have hrest := ih (m.step c).2
      cases hcut : linesFrom (m.step c).2 cs with
      | nil => exact absurd hcut (linesFrom_ne_nil _ _)
      | cons l ls =>
        rw [hcut] at hrest
        cases ls <;> simpa using hrest

theorem join_lines (script : String) : Text.join "\n" (lines script) = script := by
  have hsep : "\n".toList = ['\n'] := rfl
  rw [← String.toList_inj, Text.join, String.toList_intercalate, lines, List.map_map, hsep]
  have hid : String.toList ∘ String.ofList = id := funext fun cs => String.toList_ofList
  rw [hid, List.map_id, intercalate_linesFrom]

/-- A script is read line by line. -/
theorem tokens_eq_lines (script : String) :
    tokens script = List.intercalate [.operator ['\n']] ((lines script).map tokens) := by
  obtain ⟨l, ls, hcut, hlex⟩ := lex_eq_linesFrom .between script.toList
  have hmap : (lines script).map tokens = (l :: ls).map (lex .between) := by
    rw [lines, hcut, List.map_map]
    exact List.map_congr_left fun l _ => by simp [tokens]
  rw [tokens, hlex, hmap]
  clear hcut hlex hmap
  induction ls generalizing l with
  | nil => simp
  | cons l' ls ih => simp [ih l']

/-! ### Whole lines -/

/-- Whether some characters are a whole line: no line feed ends it early, and the next one will. -/
structure IsWhole (cs : List Char) : Prop where
  /-- No line feed stands outside quotes. -/
  unbroken : '\n' ∉ exposed .between cs
  /-- No quotes are left open, and there is no backslash at the end. -/
  closed : (Lexing.run .between cs).2.isShielded = false

theorem unbroken_cons {m : Lexing} {c : Char} {cs : List Char} (h : '\n' ∉ exposed m (c :: cs)) :
    ¬ (c = '\n' ∧ m.isShielded = false) ∧ '\n' ∉ exposed (m.step c).2 cs := by
  rw [exposed_cons] at h
  cases hm : m.isShielded with
  | true =>
    rw [hm, if_pos rfl] at h
    exact ⟨by simp, h⟩
  | false =>
    rw [hm, if_neg Bool.false_ne_true, List.mem_cons, not_or] at h
    exact ⟨fun hc => h.1 hc.1.symm, h.2⟩

theorem linesFrom_of_unbroken {m : Lexing} {cs : List Char} (h : '\n' ∉ exposed m cs) :
    linesFrom m cs = [cs] := by
  induction cs generalizing m with
  | nil => rfl
  | cons c cs ih =>
    obtain ⟨hcut, hrest⟩ := unbroken_cons h
    rw [linesFrom, if_neg hcut, ih hrest]

theorem linesFrom_append {m : Lexing} {cs : List Char} (h : '\n' ∉ exposed m cs)
    (hm : (m.run cs).2.isShielded = false) (rest : List Char) :
    linesFrom m (cs ++ '\n' :: rest) = cs :: linesFrom .between rest := by
  induction cs generalizing m with
  | nil => exact if_pos ⟨rfl, hm⟩
  | cons c cs ih =>
    obtain ⟨hcut, hrest⟩ := unbroken_cons h
    rw [List.cons_append, linesFrom, if_neg hcut, ih hrest hm]

/-- Whole lines with line feeds between them are the lines of a script. -/
theorem lines_join {ls : List String} (hne : ls ≠ []) (h : ∀ l ∈ ls, IsWhole l.toList) :
    lines (Text.join "\n" ls) = ls := by
  have hsep : "\n".toList = ['\n'] := rfl
  rw [lines, Text.join, String.toList_intercalate, hsep]
  induction ls with
  | nil => exact absurd rfl hne
  | cons l ls ih =>
    obtain ⟨hl, hls⟩ := List.forall_mem_cons.1 h
    cases ls with
    | nil => simp [linesFrom_of_unbroken hl.unbroken]
    | cons l' ls =>
      have hrest := ih (by simp) hls
      rw [List.map_cons] at hrest
      rw [List.map_cons, List.map_cons, List.intercalate_cons_cons, List.append_assoc,
        List.singleton_append, linesFrom_append hl.unbroken hl.closed, List.map_cons, hrest,
        String.ofList_toList]

/-! ### Lines of words and operators -/

/-- A part of a line, with a blank before the next. -/
inductive Item where
  /-- A text as one word, in quotes if it needs them. -/
  | word (text : String)
  /-- A text that needs no quotes.  The empty text is no word. -/
  | bare (text : String) (h : text.toList.all isBare)
  /-- An operator between the commands of a line, or one that redirects. -/
  | operator (c : Char) (h : isOperator c ∧ c ≠ '\n')

namespace Item

/-- The characters of a part. -/
def text : Item → String
  | word text => quote text
  | bare text _ => text
  | operator c _ => String.singleton c

/-- What a part is read as. -/
def tokens : Item → List Token
  | word text => [.word text.toList]
  | bare text _ => if text.toList.isEmpty then [] else [.word text.toList]
  | operator c _ => [.operator [c]]

/-- What is under way after a part. -/
def state : Item → Lexing
  | word text => .word text.toList
  | bare text _ => if text.toList.isEmpty then .between else .word text.toList
  | operator c _ => .operator c

theorem isShielded_state (i : Item) : i.state.isShielded = false := by
  cases i with
  | bare text h =>
    rw [state]
    split <;> rfl
  | _ => rfl

theorem close_state (i : Item) : i.state.close = i.tokens := by
  cases i with
  | bare text h =>
    rw [state, tokens]
    split <;> rfl
  | _ => rfl

/-- A blank completes a part. -/
theorem step_state (i : Item) : i.state.step ' ' = (i.tokens, .between) := by
  cases i with
  | word text => rfl
  | bare text h =>
    rw [state, tokens]
    split <;> rfl
  | operator c h =>
    have hblank : c ≠ ' ' := by
      rintro rfl
      exact absurd h.1 (by decide)
    simp [state, tokens, Lexing.step, Lexing.start, separates, hblank]

theorem quoteChars_of_bare {cs : List Char} (hne : cs.isEmpty = false) (h : cs.all isBare) :
    quoteChars cs = cs := by
  rw [quoteChars, if_pos (by simp [hne, h])]

theorem run_text (i : Item) : Lexing.run .between i.text.toList = ([], i.state) := by
  cases i with
  | word text => rw [Item.text, toList_quote, run_quote, state]
  | bare text h =>
    rw [Item.text, state]
    cases hempty : text.toList.isEmpty with
    | true =>
      rw [List.isEmpty_iff.1 hempty]
      rfl
    | false =>
      have hrun := run_quote text.toList
      rw [quoteChars_of_bare hempty h] at hrun
      rw [hrun]
      rfl
  | operator c h =>
    obtain ⟨hop, -⟩ := h
    have hquote : c ≠ '\'' := by
      rintro rfl
      exact absurd hop (by decide)
    have hbackslash : c ≠ '\\' := by
      rintro rfl
      exact absurd hop (by decide)
    have hblank : separates c = false := by
      refine Bool.eq_false_iff.2 fun hc => ?_
      rcases Bool.or_eq_true_iff.1 hc with hc | hc <;> rw [beq_iff_eq.1 hc] at hop <;>
        exact absurd hop (by decide)
    simp [Item.text, state, Lexing.run, Lexing.step, Lexing.start, hquote, hbackslash, hblank, hop]

theorem sealed_quoteChars (cs : List Char) : SealedFrom .between (quoteChars cs) := by
  have hsealed := (sealedFrom_quote cs []).2 (sealedFrom_nil _)
  rwa [List.append_nil] at hsealed

/-- What of a part stands outside quotes. -/
theorem exposed_text (i : Item) {c : Char} (hc : c ∈ exposed .between i.text.toList) :
    isPlain c ∨ ∃ h, i = .operator c h := by
  cases i with
  | word text =>
    rw [Item.text, toList_quote] at hc
    exact .inl (sealed_quoteChars _ c hc)
  | bare text h =>
    rw [Item.text] at hc
    cases hempty : text.toList.isEmpty with
    | true =>
      rw [List.isEmpty_iff.1 hempty, exposed] at hc
      cases hc
    | false =>
      rw [← quoteChars_of_bare hempty h] at hc
      exact .inl (sealed_quoteChars _ c hc)
  | operator c' h =>
    have hchars : exposed .between (Item.operator c' h).text.toList = [c'] := by
      simp [Item.text, exposed]
    rw [hchars, List.mem_singleton] at hc
    subst hc
    exact .inr ⟨h, rfl⟩

end Item

/-- A line of some parts. -/
def line (items : List Item) : String := Text.join " " (items.map Item.text)

theorem toList_line_cons (i j : Item) (items : List Item) :
    (line (i :: j :: items)).toList = i.text.toList ++ ' ' :: (line (j :: items)).toList := by
  have hsep : " ".toList = [' '] := rfl
  simp [line, Text.join, String.toList_intercalate, hsep]

@[simp] theorem line_singleton (i : Item) : line [i] = i.text := by
  simp [line, Text.join]

theorem run_line (items : List Item) :
    (Lexing.run .between (line items).toList).2.isShielded = false ∧
      (Lexing.run .between (line items).toList).1 ++
        (Lexing.run .between (line items).toList).2.close = items.flatMap Item.tokens := by
  induction items with
  | nil => exact ⟨rfl, rfl⟩
  | cons i items ih =>
    cases items with
    | nil => simp [i.run_text, i.close_state, i.isShielded_state]
    | cons j items =>
      rw [toList_line_cons, Lexing.run_append, i.run_text, Lexing.run, i.step_state]
      exact ⟨ih.1, by rw [List.flatMap_cons, ← ih.2]; simp⟩

/-- A line is read part by part. -/
theorem tokens_line (items : List Item) : tokens (line items) = items.flatMap Item.tokens := by
  have hlex := lex_append .between (line items).toList []
  rw [List.append_nil] at hlex
  rw [tokens, hlex, ← (run_line items).2]
  rfl

/-- Nothing of a line stands outside quotes but plain characters and the operators. -/
theorem exposed_line {items : List Item} {c : Char}
    (hc : c ∈ exposed .between (line items).toList) :
    isPlain c ∨ ∃ h, .operator c h ∈ items := by
  have hblank : isPlain ' ' := by decide
  induction items with
  | nil => cases hc
  | cons i items ih =>
    cases items with
    | nil =>
      rw [line_singleton] at hc
      exact (i.exposed_text hc).imp_right fun ⟨h, hi⟩ => ⟨h, by simp [hi]⟩
    | cons j items =>
      rw [toList_line_cons, exposed_append, i.run_text, exposed_cons, i.isShielded_state,
        i.step_state, if_neg Bool.false_ne_true, List.mem_append, List.mem_cons] at hc
      rcases hc with hc | rfl | hc
      · exact (i.exposed_text hc).imp_right fun ⟨h, hi⟩ => ⟨h, by simp [hi]⟩
      · exact .inl hblank
      · exact (ih hc).imp_right fun ⟨h, hmem⟩ => ⟨h, .tail i hmem⟩

theorem isWhole_line (items : List Item) : IsWhole (line items).toList where
  unbroken h := by
    rcases exposed_line h with hplain | ⟨⟨-, hne⟩, -⟩
    · exact absurd hplain (by decide)
    · exact hne rfl
  closed := (run_line items).1

end Shell

end Provisioning
