import Mathlib.Data.List.Infix
import Provisioning.Proofs.Host.World
import Provisioning.Proofs.Shell.Layers
import Provisioning.Run.Log

/-!
# What scripts touch

`Shell.effect` tells which files a script makes and deletes.  `Shell.touched` tells more: all paths
that a script may make, rename, delete or change the rights of, directories among them.  A shell
that a script starts with a script of its own is looked into.

* `touched_makeDirScript`, `touched_deleteScript`, `touched_doneScript`, `touched_failedScript` :
  the scripts by which a run keeps its books;
* `touched_writeScript`, `touched_finalizeScript`, `Log.only_write` : those that write a log;
* `touched_setupCall` : the script that prepares a host;
* `Allowed.mem_iff_of_not_mem_touched` : what no script of an exchange touches stays as it is.
-/

namespace Provisioning

namespace Shell

/-! ### Paths that commands name -/

/-- A path and those of all directories above it. -/
def upwards (path : String) : List String :=
  path :: (path.toList.inits.filter fun q => (q ++ ['/']).isPrefixOf path.toList).map String.ofList

theorem mem_upwards {p path : String} :
    p ∈ upwards path ↔ p = path ∨ ∃ rest, path.toList = p.toList ++ '/' :: rest := by
  rw [upwards, List.mem_cons, List.mem_map]
  refine or_congr_right ⟨?_, ?_⟩
  · rintro ⟨q, hq, rfl⟩
    rw [List.mem_filter, List.isPrefixOf_iff_prefix] at hq
    obtain ⟨rest, hrest⟩ := hq.2
    exact ⟨rest, by simpa using hrest.symm⟩
  · rintro ⟨rest, hrest⟩
    have hbegin : p.toList ++ ['/'] <+: path.toList := ⟨rest, by simpa using hrest.symm⟩
    refine ⟨p.toList, ?_, String.ofList_toList⟩
    rw [List.mem_filter, List.isPrefixOf_iff_prefix, List.mem_inits]
    exact ⟨(List.prefix_append _ _).trans hbegin, hbegin⟩

/-- The words among some tokens. -/
def operands : List Token → List String
  | .word w :: ts => String.ofList w :: operands ts
  | .operator _ :: ts => operands ts
  | [] => []

@[simp] theorem operands_nil : operands [] = [] := rfl

@[simp] theorem operands_word (w : List Char) (ts : List Token) :
    operands (.word w :: ts) = String.ofList w :: operands ts := rfl

@[simp] theorem operands_operator (o : List Char) (ts : List Token) :
    operands (.operator o :: ts) = operands ts := rfl

@[simp] theorem operands_words (ws : List (List Char)) :
    operands (ws.map .word) = ws.map String.ofList := by
  induction ws with
  | nil => rfl
  | cons w ws ih => exact congrArg (String.ofList w :: ·) ih

/-- What a command of some words makes or changes, but for the file that its output goes to. -/
def named : List String → List String
  | [] => []
  | w :: ws =>
    if w = "\x7b" then named ws
    else if w = "mkdir" then (ws.erase "-p").flatMap upwards
    else if w = "mv" then ws
    else if w = "chmod" ∨ w = "chgrp" then ws.drop 1
    else []

/-- All that a command touches. -/
def commandTouched (ts : List Token) : List String :=
  (commandEffect ts).map FileOp.path ++ named (operands ts)

/-- What is run by a command of some words, with the rights of another user or not. -/
def unelevated (ws : List String) : List String :=
  if ws.take 3 = ["sudo", "-n", "-H"] then ws.drop 3 else ws

/-- The script that a command of some words hands to a shell of its own. -/
def inner? (ws : List String) : Option String :=
  if (unelevated ws).take 3 = ["bash", "-e", "-c"] then (unelevated ws)[3]? else none

/-- What a script touches by commands of its own. -/
def touchedOutside (script : String) : List String :=
  (commands (tokens script)).flatMap commandTouched

/-- What a script touches, by commands of its own or by a shell that it starts. -/
def touched (script : String) : List String :=
  touchedOutside script ++
    ((commands (tokens script)).filterMap fun ts => inner? (operands ts)).flatMap touchedOutside

/-- What a script has an effect on it touches. -/
theorem mem_touched_of_mem_effect {script : String} {op : FileOp} (h : op ∈ effect script) :
    op.path ∈ touched script := by
  obtain ⟨ts, hts, hop⟩ := List.mem_flatMap.1 h
  refine List.mem_append_left _ (List.mem_flatMap.2 ⟨ts, hts, ?_⟩)
  exact List.mem_append_left _ (List.mem_map_of_mem hop)

end Shell

open Shell

/-! ### The scripts of a run -/

variable (dir sum script : String)

/-- The directory of a task is made with all that is missing above it. -/
theorem touched_makeDirScript :
    touched (Runner.makeDirScript dir) = upwards dir ++ [dir] := by
  simp [touched, touchedOutside, tokens_makeDirScript, commands, Token.ends, commandTouched,
    commandEffect, redirections, named, inner?, unelevated]

theorem touched_deleteScript (sums : List String) :
    touched (Runner.deleteScript dir sums) = sums.map (Cache.donePath dir) := by
  rw [touched, touchedOutside, tokens_deleteScript, commands_words]
  simp [commandTouched, commandEffect, List.filterMap_map, Function.comp_def, removal?, named,
    inner?, unelevated, FileOp.path]

theorem touched_doneScript :
    touched (Runner.doneScript dir sum script) =
      [Cache.donePath dir sum, Cache.failedPath dir sum] := by
  obtain ⟨ws, h⟩ := tokens_doneScript dir sum script
  rw [touched, touchedOutside, h, commands_words_append rfl]
  simp [commands, Token.ends, commandTouched, commandEffect, redirections, removal?, named,
    inner?, unelevated, FileOp.path, redirections_words]

theorem touched_failedScript :
    touched (Runner.failedScript dir sum script) = [Cache.failedPath dir sum] := by
  obtain ⟨ws, h⟩ := tokens_failedScript dir sum script
  rw [touched, touchedOutside, h, commands_words_append rfl]
  simp [commands, Token.ends, commandTouched, commandEffect, redirections, named,
    inner?, unelevated, FileOp.path, redirections_words]

theorem touched_writeScript :
    touched (Log.writeScript dir sum) = [Cache.partialLogPath dir sum] := by
  have h : tokens (Log.writeScript dir sum) =
      [.word "cat".toList, .operator ['>'], .word (Cache.partialLogPath dir sum).toList] := by
    simp [tokens, Log.writeScript, lex, Lexing.step, Lexing.start, separates, isOperator]
  simp [touched, touchedOutside, h, commands, Token.ends, commandTouched, commandEffect,
    redirections, named, inner?, unelevated, FileOp.path]

theorem touched_finalizeScript :
    touched (Log.finalizeScript dir sum) =
      [Cache.partialLogPath dir sum, Cache.logPath dir sum, Cache.logPath dir sum] := by
  have h : tokens (Log.finalizeScript dir sum) =
      ["mv".toList, (Cache.partialLogPath dir sum).toList, (Cache.logPath dir sum).toList].map
        .word ++ .operator ['&', '&'] ::
          ["chmod".toList, "g+w".toList, (Cache.logPath dir sum).toList].map .word := by
    simp [tokens, Log.finalizeScript, lex, Lexing.step, Lexing.start, separates, isOperator,
      lex_quote]
  simp [touched, touchedOutside, h, commands, Token.ends, commandTouched, commandEffect,
    redirections, named, inner?, unelevated]

/-! ### Before the first task -/

theorem touched_listGroups : touched "id -nG" = [] := by decide

theorem touched_listingScript (root : String) : touched (Cache.listingScript root) = [] := by
  simp [touched, touchedOutside, tokens_listingScript, commands, Token.ends, commandTouched,
    commandEffect, redirections, named, inner?, unelevated]

/-- The call of a strict shell touches what the script in it does. -/
theorem touched_strictShell (elevate : Bool) :
    touched (strictShell elevate script) = touchedOutside script := by
  rw [touched, touchedOutside, tokens_strictShell, wordTokens]
  cases elevate <;>
    simp [commands, Token.ends, commandTouched, commandEffect, redirections, named, inner?,
      unelevated]

theorem tokens_setupScript (settings : Settings) (user : String) :
    tokens (setupScript settings user) =
      [.word "getent".toList, .word "group".toList, .word settings.cacheGroup.toList,
        .operator ['>'], .word "/dev/null".toList, .operator ['|', '|'], .word "groupadd".toList,
        .word settings.cacheGroup.toList, .operator [';'], .word "mkdir".toList,
        .word "-p".toList, .word settings.cacheRoot.toList, .operator [';'],
        .word "chgrp".toList, .word settings.cacheGroup.toList,
        .word settings.cacheRoot.toList, .operator [';'], .word "chmod".toList,
        .word "2775".toList, .word settings.cacheRoot.toList, .operator [';'],
        .word "usermod".toList, .word "-a".toList, .word "-G".toList,
        .word settings.cacheGroup.toList, .word user.toList] := by
  -- the words as they stand in the script, between those that are quoted
  have hgetent : ∀ rest, lex .between ("getent group ".toList ++ rest) =
      .word "getent".toList :: .word "group".toList :: lex .between rest := fun _ => rfl
  have hgroupadd : ∀ w rest, lex (.word w) (" >/dev/null || groupadd ".toList ++ rest) =
      .word w :: .operator ['>'] :: .word "/dev/null".toList :: .operator ['|', '|'] ::
        .word "groupadd".toList :: lex .between rest := fun _ _ => rfl
  have hmkdir : ∀ rest, lex .between ("mkdir -p ".toList ++ rest) =
      .word "mkdir".toList :: .word "-p".toList :: lex .between rest := fun _ => rfl
  have hchgrp : ∀ w rest, lex (.word w) ("; chgrp ".toList ++ rest) =
      .word w :: .operator [';'] :: .word "chgrp".toList :: lex .between rest := fun _ _ => rfl
  have hchmod : ∀ w rest, lex (.word w) ("; chmod 2775 ".toList ++ rest) =
      .word w :: .operator [';'] :: .word "chmod".toList :: .word "2775".toList ::
        lex .between rest := fun _ _ => rfl
  have husermod : ∀ rest, lex .between ("usermod -a -G ".toList ++ rest) =
      .word "usermod".toList :: .word "-a".toList :: .word "-G".toList :: lex .between rest :=
    fun _ => rfl
  have hend : ∀ w rest, lex (.word w) ("; ".toList ++ rest) =
      .word w :: .operator [';'] :: lex .between rest := fun _ _ => rfl
  have hspace : ∀ w rest, lex (.word w) (" ".toList ++ rest) = .word w :: lex .between rest :=
    fun _ _ => rfl
  unfold tokens setupScript
  simp only [String.toList_append, toList_quote, List.append_assoc, -String.reduceToList]
  rw [hgetent, lex_quote, hgroupadd, lex_quote, hend, hmkdir, lex_quote, hchgrp, lex_quote,
    hspace, lex_quote, hchmod, lex_quote, hend, husermod, lex_quote, hspace, lex_quoteChars]

theorem touchedOutside_setupScript (settings : Settings) (user : String) :
    touchedOutside (setupScript settings user) =
      "/dev/null" :: (upwards settings.cacheRoot ++
        [settings.cacheRoot, settings.cacheRoot]) := by
  rw [touchedOutside, tokens_setupScript]
  simp [commands, Token.ends, commandTouched, commandEffect, redirections, named,
    FileOp.path]

/-! ### Exchanges -/

namespace Exchange

/-- The scripts that an exchange has run.  Those that write a log are run apart. -/
def scripts : Exchange → List String
  | asked call _ => [call.shell]
  | logged job _ => [Log.writeScript job.dir job.sum, Log.finalizeScript job.dir job.sum]
  | closed _ | told _ => []

/-- All that the scripts of an exchange touch. -/
def touched (x : Exchange) : List String := x.scripts.flatMap Shell.touched

@[simp] theorem touched_asked (call : Call) (reply : Reply) :
    (asked call reply).touched = Shell.touched call.shell :=
  List.flatMap_singleton _ _

@[simp] theorem touched_closed (result : Except TransportError Unit) :
    (closed result).touched = [] := rfl

@[simp] theorem touched_told (what : Happening) : (told what).touched = [] := rfl

theorem mem_touched_logged {job : LogJob} {result : Except LogError Unit} {p : String} :
    p ∈ (logged job result).touched ↔
      p = Cache.partialLogPath job.dir job.sum ∨ p = Cache.logPath job.dir job.sum := by
  simp [touched, scripts, touched_writeScript, touched_finalizeScript]

end Exchange

theorem Log.only_finalize (job : LogJob) (result : Except LogError Unit) :
    (Script.ofTalk (Log.finalize job.dir job.sum)).Only fun x =>
      x.scripts ⊆ (Exchange.logged job result).scripts := by
  refine Script.only_capture (by simp [Exchange.scripts]) fun output => ?_
  cases output with
  | error e => trivial
  | ok out =>
    dsimp only
    split <;> trivial

/-- Whoever writes a log runs none but the two scripts for that. -/
theorem Log.only_write (job : LogJob) (lines : List String) (result : Except LogError Unit) :
    (Script.ofTalk (Log.write job.dir job.sum lines)).Only fun x =>
      x.scripts ⊆ (Exchange.logged job result).scripts := by
  intro reply
  refine ⟨by simp [Exchange.scripts], ?_⟩
  cases reply with
  | refused e => trivial
  | session s =>
    dsimp only
    split
    · trivial
    · exact only_finalize job result

/-- What no script of an exchange touches stays as it is. -/
theorem Allowed.mem_iff_of_not_mem_touched {root p : String} {part : Failing} {fs fs' : Files}
    {x : Exchange} (h : Allowed root part fs x fs') (hp : p ∉ x.touched) : p ∈ fs' ↔ p ∈ fs := by
  have heffect : ∀ op ∈ x.effect, op.path ≠ p := by
    rintro op hop rfl
    cases x with
    | asked call reply => exact hp (by simpa using mem_touched_of_mem_effect hop)
    | closed | told | logged => exact absurd hop List.not_mem_nil
  cases h with
  | succeeded => exact Files.mem_after_of_forall_ne heffect
  | failed _ hd =>
    exact Files.mem_after_of_forall_ne fun op hop => heffect op ((part.sublist hd).subset hop)
  | closed | told => exact Iff.rfl
  | logged job result hlog =>
    rw [Exchange.mem_touched_logged, not_or] at hp
    exact hlog p hp.2 hp.1

end Provisioning
