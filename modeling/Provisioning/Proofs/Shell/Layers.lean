import Provisioning.Config.Issue
import Provisioning.Proofs.Shell.Token
import Provisioning.Run.Task

/-!
# Scripts inside scripts

The script of a command reaches its host as one word of another script, behind assignments whose
values may hold anything; and it may itself hand a script on as one word.  Each layer is read back
as it was put together, because every text in it is quoted.  Outside quotes there stand none but
bare characters, the blanks between words and the signs of quoting (`Shell.Sealed`), so that no
other rule of a shell than those of `Shell.tokens` finds anything to work on.

* `Shell.lex_word_quote` : a text that is quoted in the middle of a word;
* `Shell.sealed_phrase` : words that are quoted expose nothing;
* `Runner.tokens_exports` : each assignment is one word, the name and the value;
* `Runner.wrap_read_back` : what is sent for a script, through all layers.
-/

namespace Provisioning

namespace Shell

/-! ### Words -/

/-- Some texts as words. -/
def wordTokens (ws : List String) : List Token := ws.map fun w => .word w.toList

/-- Texts, each as one word, with blanks between them. -/
def phrase (ws : List String) : String := Text.join " " (ws.map quote)

/-- What is put together as words is read back as those words. -/
theorem tokens_phrase (ws : List String) : tokens (phrase ws) = wordTokens ws := lex_words ws

/-- A text that is quoted in the middle of a word becomes a part of the word. -/
theorem lex_word_quote (w cs rest : List Char) :
    lex (.word w) (quoteChars cs ++ rest) = lex (.word (w ++ cs)) rest := by
  rw [quoteChars]
  split
  · next h =>
    rw [Bool.and_eq_true] at h
    exact lex_bare w h.2 rest
  · simpa [lex, Lexing.step] using lex_quoted w cs rest

/-! ### What stands outside quotes -/

/-- The characters of a script that stand neither in quotes nor right after a backslash. -/
def exposed : Lexing → List Char → List Char
  | _, [] => []
  | .quoted w, c :: cs => exposed (Lexing.step (.quoted w) c).2 cs
  | .escaped w, c :: cs => exposed (Lexing.step (.escaped w) c).2 cs
  | m, c :: cs => c :: exposed (m.step c).2 cs

/-- Whether a character outside quotes means nothing but itself, ends a word or begins a quote. -/
def isPlain (c : Char) : Bool := isBare c || c == ' ' || c == '\'' || c == '\\'

/-- Whether the rest of a script has nothing outside quotes but plain characters. -/
def SealedFrom (m : Lexing) (cs : List Char) : Prop := ∀ c ∈ exposed m cs, isPlain c

/-- Whether a script has nothing outside quotes but plain characters. -/
def Sealed (script : String) : Prop := SealedFrom .between script.toList

theorem isPlain_of_isBare {c : Char} (h : isBare c) : isPlain c := by
  simp [isPlain, h]

@[simp] theorem sealedFrom_nil (m : Lexing) : SealedFrom m [] := by
  intro c hc
  rw [exposed] at hc
  exact absurd hc List.not_mem_nil

@[simp] theorem sealedFrom_between {c : Char} {cs : List Char} :
    SealedFrom .between (c :: cs) ↔ isPlain c ∧ SealedFrom (Lexing.start c) cs := by
  simp [SealedFrom, exposed, Lexing.step]

@[simp] theorem sealedFrom_word {w : List Char} {c : Char} {cs : List Char} :
    SealedFrom (.word w) (c :: cs) ↔
      isPlain c ∧ SealedFrom (Lexing.step (.word w) c).2 cs := by
  simp [SealedFrom, exposed]

@[simp] theorem sealedFrom_quoted {w : List Char} {c : Char} {cs : List Char} :
    SealedFrom (.quoted w) (c :: cs) ↔
      SealedFrom (if c = '\'' then .word w else .quoted (w ++ [c])) cs := Iff.rfl

@[simp] theorem sealedFrom_escaped {w : List Char} {c : Char} {cs : List Char} :
    SealedFrom (.escaped w) (c :: cs) ↔ SealedFrom (.word (w ++ [c])) cs := Iff.rfl

theorem sealedFrom_bare (w : List Char) {cs : List Char} (h : cs.all isBare) (rest : List Char) :
    SealedFrom (.word w) (cs ++ rest) ↔ SealedFrom (.word (w ++ cs)) rest := by
  induction cs generalizing w with
  | nil => simp
  | cons c cs ih =>
    rw [List.all_cons, Bool.and_eq_true] at h
    obtain ⟨h1, h2, h3⟩ := isBare_spec h.1
    simp [Lexing.step, h1, h2, h3, ih _ h.2, isPlain_of_isBare h.1]

theorem sealedFrom_inQuotes (w cs rest : List Char) :
    SealedFrom (.quoted w) (cs.flatMap singleQuotedChar ++ '\'' :: rest) ↔
      SealedFrom (.word (w ++ cs)) rest := by
  induction cs generalizing w with
  | nil => simp
  | cons c cs ih =>
    have hrest := ih (w ++ [c])
    rw [List.append_assoc, List.singleton_append] at hrest
    rw [List.flatMap_cons, List.append_assoc, singleQuotedChar]
    split
    · -- the quotes are left for a backslash and the character, and entered again
      have hbackslash : isPlain '\\' := by decide
      have hquote : isPlain '\'' := by decide
      simpa [Lexing.step, hbackslash, hquote] using hrest
    · next hc =>
      have hne : c ≠ '\'' := by
        rintro rfl
        exact hc rfl
      simpa [hne] using hrest

/-- A text that is quoted in the middle of a word exposes nothing. -/
theorem sealedFrom_word_quote (w cs rest : List Char) :
    SealedFrom (.word w) (quoteChars cs ++ rest) ↔ SealedFrom (.word (w ++ cs)) rest := by
  rw [quoteChars]
  split
  · next h =>
    rw [Bool.and_eq_true] at h
    exact sealedFrom_bare w h.2 rest
  · have hquote : isPlain '\'' := by decide
    simpa [Lexing.step, hquote] using sealedFrom_inQuotes w cs rest

/-- Nor does one that is a word by itself. -/
theorem sealedFrom_quote (cs rest : List Char) :
    SealedFrom .between (quoteChars cs ++ rest) ↔ SealedFrom (.word cs) rest := by
  have hquote : isPlain '\'' := by decide
  rw [quoteChars]
  split
  · next h =>
    cases cs with
    | nil => simp at h
    | cons c cs =>
      simp only [List.isEmpty_cons, Bool.not_false, Bool.true_and, List.all_cons,
        Bool.and_eq_true] at h
      obtain ⟨h1, h2, h3⟩ := isBare_spec h.1
      rw [Bool.or_eq_false_iff] at h3
      have hrest := sealedFrom_bare [c] h.2 rest
      simpa [Lexing.start, h1, h2, h3.1, h3.2, isPlain_of_isBare h.1] using hrest
  · simpa [Lexing.start, hquote] using sealedFrom_inQuotes [] cs rest

/-- What is put together as words exposes nothing. -/
theorem sealed_phrase (ws : List String) : Sealed (phrase ws) := by
  have hspace : isPlain ' ' := by decide
  rw [Sealed, phrase, Text.join, String.toList_intercalate]
  induction ws with
  | nil => exact sealedFrom_nil _
  | cons w ws ih =>
    cases ws with
    | nil => simpa using sealedFrom_quote w.toList []
    | cons v vs =>
      have hsep : " ".toList = [' '] := rfl
      simp only [List.map_cons, List.intercalate_cons_cons, hsep] at ih ⊢
      rw [toList_quote, List.append_assoc, sealedFrom_quote, List.singleton_append,
        sealedFrom_word]
      exact ⟨hspace, ih⟩

end Shell

/-! ### Assignments -/

/-- A word by which a variable gets a value. -/
def Runner.assignment (name value : String) : String := name ++ "=" ++ Shell.quote value

open Shell

theorem isBare_of_isVariableName {key : String} (h : isVariableName key) :
    key.toList.all isBare := by
  have hpart : ∀ c : Char, (c.isAlphanum || c == '_') = true → isBare c := by
    intro c hc
    rcases Bool.or_eq_true_iff.1 hc with hc | hc <;> simp [isBare, hc]
  rw [isVariableName] at h
  cases hkey : key.toList with
  | nil => rfl
  | cons c cs =>
    simp only [hkey, Bool.and_eq_true] at h
    rw [List.all_cons, Bool.and_eq_true]
    refine ⟨hpart c ?_, ?_⟩
    · simp only [Char.isAlphanum, Bool.or_eq_true] at h ⊢
      exact h.1.imp_left .inl
    · rw [List.all_eq_true]
      intro d hd
      exact hpart d (List.all_eq_true.1 h.2 d hd)

/-- The beginning of an assignment, up to its value, is quoted as it stands. -/
theorem quoteChars_assigned {name : String} (h : isVariableName name) :
    quoteChars (name.toList ++ ['=']) = name.toList ++ ['='] := by
  have hbare : (name.toList ++ ['=']).all isBare := by
    rw [List.all_append, isBare_of_isVariableName h]
    rfl
  rw [quoteChars, if_pos (by simpa using hbare)]

theorem Runner.toList_assignment (name value : String) :
    (assignment name value).toList = (name.toList ++ ['=']) ++ quoteChars value.toList := by
  simp [assignment]

/-- An assignment is one word, the name and the value. -/
theorem Runner.lex_assignment {name : String} (h : isVariableName name) (value : String)
    (rest : List Char) :
    lex .between ((assignment name value).toList ++ rest) =
      lex (.word (name ++ "=" ++ value).toList) rest := by
  have hname := lex_quote (name.toList ++ ['=']) (quoteChars value.toList ++ rest)
  rw [quoteChars_assigned h, lex_word_quote] at hname
  rw [toList_assignment, List.append_assoc, hname]
  simp

theorem Runner.tokens_assignment {name : String} (h : isVariableName name) (value : String) :
    tokens (assignment name value) = wordTokens [name ++ "=" ++ value] := by
  have hword := lex_assignment h value []
  rwa [List.append_nil] at hword

/-- It exposes nothing. -/
theorem Runner.sealed_assignment {name : String} (h : isVariableName name) (value : String) :
    Sealed (assignment name value) := by
  have hname := sealedFrom_quote (name.toList ++ ['=']) (quoteChars value.toList ++ [])
  rw [quoteChars_assigned h, sealedFrom_word_quote, List.append_nil] at hname
  rw [Sealed, toList_assignment, hname]
  exact sealedFrom_nil _

theorem Runner.exports_eq_join (env : List (String × String)) :
    exports env = String.join ((env.map fun e => assignment e.1 e.2).map fun w =>
      "export " ++ w ++ "; ") := by
  induction env with
  | nil => rfl
  | cons e env ih => simp [exports, ih, assignment, String.append_assoc]

/-- The exports are so many commands before a script, each with one assignment. -/
theorem Runner.tokens_exports {env : List (String × String)}
    (h : ∀ e ∈ env, isVariableName e.1) (script : String) :
    tokens (exports env ++ script) =
      env.flatMap (fun e => wordTokens ["export", e.1 ++ "=" ++ e.2] ++ [.operator [';']]) ++
        tokens script := by
  induction env with
  | nil => simp [exports]
  | cons e env ih =>
    have hword := lex_assignment (h e List.mem_cons_self) e.2
      (';' :: ' ' :: (exports env ++ script).toList)
    have hrest := ih fun e' he => h e' (List.mem_cons_of_mem _ he)
    have htext : (exports (e :: env) ++ script).toList =
        "export".toList ++ ' ' :: ((assignment e.1 e.2).toList ++
          ';' :: ' ' :: (exports env ++ script).toList) := by
      simp [exports, assignment]
    have hexport : lex .between ("export".toList ++ ' ' :: ((assignment e.1 e.2).toList ++
        ';' :: ' ' :: (exports env ++ script).toList)) =
          .word "export".toList :: lex .between ((assignment e.1 e.2).toList ++
            ';' :: ' ' :: (exports env ++ script).toList) := rfl
    rw [tokens, htext, hexport, hword, List.flatMap_cons, List.append_assoc, ← hrest]
    simp [lex, Lexing.step, Lexing.start, separates, isOperator, wordTokens, tokens]

/-! ### Layers -/

/-- Names that can stand for variables are those of which no fault is found. -/
theorem Settings.badVariable_mem_issues {s : Settings} {key : String} :
    .badVariable key ∈ s.issues ↔ key ∈ s.env.names ∧ isVariableName key = false := by
  have hroot : Issue.badVariable key ∉
      (if Path.isAbsolute s.cacheRoot then [] else [Issue.relativeCacheRoot s.cacheRoot]) := by
    split <;> simp
  rw [issues, List.mem_append, List.mem_append, List.mem_append]
  simp [hroot]

theorem strictShell_eq_phrase (elevate : Bool) (script : String) :
    strictShell elevate script =
      phrase ((if elevate then ["sudo", "-n", "-H"] else []) ++ ["bash", "-e", "-c", script]) := by
  have hbare : ∀ w ∈ ["sudo", "-n", "-H", "bash", "-e", "-c"], quote w = w := by decide
  simp only [List.forall_mem_cons] at hbare
  obtain ⟨h₁, h₂, h₃, h₄, h₅, h₆, -⟩ := hbare
  apply String.toList_injective
  cases elevate with
  | false => simp [strictShell, phrase, Text.join, h₄, h₅, h₆]
  | true => simp [strictShell, phrase, Text.join, h₁, h₂, h₃, h₄, h₅, h₆]

theorem tokens_strictShell (elevate : Bool) (script : String) :
    tokens (strictShell elevate script) = wordTokens
      ((if elevate then ["sudo", "-n", "-H"] else []) ++ ["bash", "-e", "-c", script]) := by
  rw [strictShell_eq_phrase, tokens_phrase]

theorem Command.script_asUser_eq_phrase (user run : String) :
    (Command.asUser user run).script = phrase ["su", "-l", user, "-c", run] := by
  have hbare : ∀ w ∈ ["su", "-l", "-c"], quote w = w := by decide
  simp only [List.forall_mem_cons] at hbare
  obtain ⟨h₁, h₂, h₃, -⟩ := hbare
  apply String.toList_injective
  simp [Command.script, phrase, Text.join, h₁, h₂, h₃]

/-- What is sent for a script is read back, layer by layer, as it was put together.  It is a call
of a strict shell, behind `sudo` where privileges are to be raised, with one last word.  That word
exports the variables of the environment, each by one assignment that is read back as the name and
the value, and then goes on with the script as it is.  Neither the call nor an assignment has
anything outside quotes that a shell would work on.  Where the script runs another as some user, it
is in turn read back as the call that does so, of that user and that other script. -/
theorem Runner.wrap_read_back (r : Runner) (h : ∀ key, .badVariable key ∉ r.settings.issues)
    (script : String) :
    ∃ assignments : List String,
      assignments.map tokens =
        r.settings.env.entries.map (fun e => wordTokens [e.1 ++ "=" ++ e.2]) ∧
      (∀ a ∈ assignments, Sealed a) ∧
      let inner := String.join (assignments.map fun a => "export " ++ a ++ "; ") ++ script
      tokens (r.wrap script) =
        wordTokens ((if r.settings.elevation.applies r.user then ["sudo", "-n", "-H"] else []) ++
          ["bash", "-e", "-c", inner]) ∧
      Sealed (r.wrap script) ∧
      tokens inner =
        r.settings.env.entries.flatMap
          (fun e => wordTokens ["export", e.1 ++ "=" ++ e.2] ++ [.operator [';']]) ++
            tokens script ∧
      ∀ user run, script = (Command.asUser user run).script →
        tokens script = wordTokens ["su", "-l", user, "-c", run] ∧ Sealed script := by
  have hnames : ∀ e ∈ r.settings.env.entries, isVariableName e.1 := by
    intro e he
    by_cases hname : isVariableName e.1 = true
    · exact hname
    · rw [Bool.not_eq_true] at hname
      exact absurd (Settings.badVariable_mem_issues.2 ⟨List.mem_map_of_mem he, hname⟩) (h e.1)
  refine ⟨r.settings.env.entries.map fun e => assignment e.1 e.2, ?_, ?_, ?_, ?_, ?_, ?_⟩
  · rw [List.map_map]
    exact List.map_congr_left fun e he => tokens_assignment (hnames e he) e.2
  · intro a ha
    obtain ⟨e, he, rfl⟩ := List.mem_map.1 ha
    exact sealed_assignment (hnames e he) e.2
  · rw [wrap, tokens_strictShell, exports_eq_join]
  · rw [wrap, strictShell_eq_phrase]
    exact sealed_phrase _
  · rw [← exports_eq_join]
    exact tokens_exports hnames script
  · rintro user run rfl
    rw [Command.script_asUser_eq_phrase]
    exact ⟨tokens_phrase _, sealed_phrase _⟩

/-- A user who has to raise his privileges, with a variable whose value has to be quoted. -/
def Runner.greeter : Runner :=
  ⟨"deploy", { env := ⟨[("GREETING", "it's me!")], by decide⟩ }⟩

/-- A script with quotes of its own, run as another user behind raised privileges. -/
theorem Runner.wrap_read_back_greeter :
    (∀ key, .badVariable key ∉ greeter.settings.issues) ∧
      Sealed (greeter.wrap (Command.asUser "eve" "echo 'hi!'; id").script) ∧
      tokens (Command.asUser "eve" "echo 'hi!'; id").script =
        wordTokens ["su", "-l", "eve", "-c", "echo 'hi!'; id"] := by
  have hissues : greeter.settings.issues = [] := by decide +kernel
  have hnames : ∀ key, .badVariable key ∉ greeter.settings.issues := by
    intro key
    rw [hissues]
    exact List.not_mem_nil
  obtain ⟨-, -, -, -, hsealed, -, hscript⟩ :=
    wrap_read_back greeter hnames (Command.asUser "eve" "echo 'hi!'; id").script
  exact ⟨hnames, hsealed, (hscript _ _ rfl).1⟩

end Provisioning
