import Provisioning.Shell.Word
import Provisioning.Text.Blank

/-!
# How a shell cuts a script into words

`Shell.tokens` cuts a script into words and operators by the rules of a POSIX shell: blanks
separate, text in single quotes stands for itself, and a backslash outside quotes takes the next
character.  Double quotes and expansions are left out, because a quoted word holds none.

* `Shell.lex_quote` : a quoted word is read back as the text that was quoted;
* `Shell.lex_words` : so are many, with blanks between them.
-/

namespace Provisioning

namespace Shell

/-- A token of a script. -/
inductive Token where
  /-- A word, its quotes removed. -/
  | word (text : List Char)
  /-- An operator; a line feed is one too. -/
  | operator (text : List Char)
deriving DecidableEq, Repr

/-- What the characters read so far are the beginning of. -/
inductive Lexing where
  /-- Nothing yet. -/
  | between
  /-- An operator of one or two characters. -/
  | operator (c : Char)
  /-- A word. -/
  | word (text : List Char)
  /-- A word, inside its quotes. -/
  | quoted (text : List Char)
  /-- A word, right after a backslash. -/
  | escaped (text : List Char)
deriving DecidableEq, Repr

/-- The blanks between words. -/
def separates (c : Char) : Bool := c == ' ' || c == '\t'

/-- The characters of operators. -/
def isOperator (c : Char) : Bool :=
  c == '|' || c == '&' || c == ';' || c == '<' || c == '>' || c == '(' || c == ')' || c == '\n'

namespace Lexing

/-- What a character begins that stands outside words. -/
def start (c : Char) : Lexing :=
  if c = '\'' then quoted []
  else if c = '\\' then escaped []
  else if separates c then between
  else if isOperator c then operator c
  else word [c]

/-- The tokens that a character completes, and what is under way after it. -/
def step : Lexing → Char → List Token × Lexing
  | between, c => ([], start c)
  | operator o, c =>
    if o = c ∧ c ≠ '\n' then ([.operator [o, c]], between) else ([.operator [o]], start c)
  | word w, c =>
    if c = '\'' then ([], quoted w)
    else if c = '\\' then ([], escaped w)
    else if separates c || isOperator c then ([.word w], start c)
    else ([], word (w ++ [c]))
  | quoted w, c => ([], if c = '\'' then word w else quoted (w ++ [c]))
  | escaped w, c => ([], word (w ++ [c]))

/-- The token that the end of the script completes. -/
def close : Lexing → List Token
  | between => []
  | operator o => [.operator [o]]
  | word w | quoted w | escaped w => [.word w]

end Lexing

/-- The tokens of the rest of a script. -/
def lex : Lexing → List Char → List Token
  | m, [] => m.close
  | m, c :: cs => (m.step c).1 ++ lex (m.step c).2 cs

/-- The tokens that some characters complete, and what is under way after them. -/
def Lexing.run : Lexing → List Char → List Token × Lexing
  | m, [] => ([], m)
  | m, c :: cs => ((m.step c).1 ++ (run (m.step c).2 cs).1, (run (m.step c).2 cs).2)

theorem Lexing.run_append (m : Lexing) (cs rest : List Char) :
    m.run (cs ++ rest) =
      ((m.run cs).1 ++ ((m.run cs).2.run rest).1, ((m.run cs).2.run rest).2) := by
  induction cs generalizing m with
  | nil => rfl
  | cons c cs ih => simp [run, ih]

/-- Characters are read on from what is under way after those before them. -/
theorem lex_append (m : Lexing) (cs rest : List Char) :
    lex m (cs ++ rest) = (m.run cs).1 ++ lex (m.run cs).2 rest := by
  induction cs generalizing m with
  | nil => rfl
  | cons c cs ih => simp [lex, Lexing.run, ih]

/-- The tokens of a script. -/
def tokens (script : String) : List Token := lex .between script.toList

/-! ### Reading quoted words -/

theorem isBare_spec {c : Char} (h : isBare c) :
    c ≠ '\'' ∧ c ≠ '\\' ∧ (separates c || isOperator c) = false := by
  refine ⟨?_, ?_, ?_⟩
  · rintro rfl
    exact absurd h (by decide)
  · rintro rfl
    exact absurd h (by decide)
  · refine Bool.eq_false_iff.2 fun hc => ?_
    simp only [separates, isOperator, Bool.or_eq_true, beq_iff_eq] at hc
    rcases hc with (rfl | rfl) | ((((((rfl | rfl) | rfl) | rfl) | rfl) | rfl) | rfl) | rfl <;>
      exact absurd h (by decide)

theorem run_bare (w : List Char) {cs : List Char} (h : cs.all isBare) :
    Lexing.run (.word w) cs = ([], .word (w ++ cs)) := by
  induction cs generalizing w with
  | nil => simp [Lexing.run]
  | cons c cs ih =>
    simp only [List.all_cons, Bool.and_eq_true] at h
    obtain ⟨h1, h2, h3⟩ := isBare_spec h.1
    simp [Lexing.run, Lexing.step, h1, h2, h3, ih _ h.2]

theorem run_inQuotes (w cs : List Char) :
    Lexing.run (.quoted w) (cs.flatMap singleQuotedChar) = ([], .quoted (w ++ cs)) := by
  induction cs generalizing w with
  | nil => simp [Lexing.run]
  | cons c cs ih =>
    rw [List.flatMap_cons, singleQuotedChar]
    split
    · -- the character stands between two pieces in quotes
      simp [Lexing.run, Lexing.step, ih]
    · rename_i hc
      have hq : c ≠ '\'' := by
        rintro rfl
        simp at hc
      simp [Lexing.run, Lexing.step, hq, ih]

/-- A quoted text is the beginning of a word, or all of it. -/
theorem run_quote (cs : List Char) : Lexing.run .between (quoteChars cs) = ([], .word cs) := by
  rw [quoteChars]
  split
  · rename_i h
    cases cs with
    | nil => simp at h
    | cons c cs =>
      simp only [List.isEmpty_cons, Bool.not_false, Bool.true_and, List.all_cons,
        Bool.and_eq_true] at h
      obtain ⟨h1, h2, h3⟩ := isBare_spec h.1
      rw [Bool.or_eq_false_iff] at h3
      simp [Lexing.run, Lexing.step, Lexing.start, h1, h2, h3.1, h3.2, run_bare _ h.2]
  · simp [Lexing.run, Lexing.run_append, Lexing.step, Lexing.start, run_inQuotes]

theorem lex_bare (w : List Char) {cs : List Char} (h : cs.all isBare) (rest : List Char) :
    lex (.word w) (cs ++ rest) = lex (.word (w ++ cs)) rest := by
  rw [lex_append, run_bare w h, List.nil_append]

theorem lex_quoted (w cs rest : List Char) :
    lex (.quoted w) (cs.flatMap singleQuotedChar ++ '\'' :: rest) = lex (.word (w ++ cs)) rest := by
  rw [lex_append, run_inQuotes, List.nil_append]
  rfl

/-- A quoted word is read back as the text that was quoted. -/
theorem lex_quote (cs rest : List Char) :
    lex .between (quoteChars cs ++ rest) = lex (.word cs) rest := by
  rw [lex_append, run_quote, List.nil_append]

/-- A quoted word at the end of a script is its last. -/
@[simp] theorem lex_quoteChars (cs : List Char) : lex .between (quoteChars cs) = [.word cs] := by
  have h := lex_quote cs []
  rwa [List.append_nil] at h

@[simp] theorem toList_quote (s : String) : (quote s).toList = quoteChars s.toList :=
  String.toList_ofList

@[simp] theorem lex_word_nil (w : List Char) : lex (.word w) [] = [.word w] := rfl

@[simp] theorem lex_word_space (w rest : List Char) :
    lex (.word w) (' ' :: rest) = .word w :: lex .between rest := rfl

/-- Quoted words with blanks between them are read back as the texts that were quoted. -/
theorem lex_words (ws : List String) :
    lex .between (Text.join " " (ws.map quote)).toList = ws.map fun w => .word w.toList := by
  rw [Text.join, String.toList_intercalate]
  induction ws with
  | nil => rfl
  | cons w ws ih =>
    cases ws with
    | nil => simp
    | cons v vs =>
      have hsep : " ".toList = [' '] := rfl
      simp only [List.map_cons, List.intercalate_cons_cons, hsep] at ih ⊢
      rw [toList_quote, List.append_assoc, lex_quote, List.singleton_append, lex_word_space, ih]

end Shell

end Provisioning
