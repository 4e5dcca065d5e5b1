import Provisioning.Proofs.Cache.Store
import Provisioning.Proofs.Shell.Layers
import Provisioning.Proofs.Text.Base64
import Provisioning.Run.Provision

/-!
# What the scripts of a run do to files

Each script by which a run keeps its books is cut into words as a shell does it
(`tokens_doneScript` and its like), and its effect read off them:

* `effect_deleteScript` : the markers of success are deleted that are named;
* `effect_doneScript` : a marker of success is made, and one of failure deleted;
* `effect_failedScript` : a marker of failure is made;
* `effect_makeDirScript`, `effect_listingScript`, `effect_strictShell`, `effect_listGroups` :
  nothing happens to files; what a shell of its own runs is not looked into.
-/

namespace Provisioning

open Shell

/-! ### Words in base64 -/

/-- A bare text before a blank is a word, or nothing if it is empty. -/
theorem lex_bare_space {cs rest : List Char} (h : cs.all isBare) :
    lex .between (cs ++ ' ' :: rest) =
      (if cs.isEmpty then [] else [.word cs]) ++ lex .between rest := by
  cases cs with
  | nil => rfl
  | cons c cs =>
    have hq : quoteChars (c :: cs) = c :: cs := by
      rw [quoteChars, if_pos (by simpa using h)]
    have := lex_quote (c :: cs) (' ' :: rest)
    rw [hq] at this
    rw [this]
    rfl

/-! ### Effects -/

variable (dir sum script : String)

/-- What a script is put into a file with, as a shell reads it. -/
theorem lex_recordScript (path : String) (rest : List Char) :
    ∃ ws, lex .between ((Runner.recordScript script path).toList ++ rest) =
      ("printf".toList :: "%s".toList :: ws).map .word ++ .operator ['|'] ::
        .word "base64".toList :: .word "-d".toList :: .operator ['>'] ::
          lex (.word path.toList) rest := by
  have h := Base64.all_isBare_encode (textBytes script)
  refine ⟨if (Base64.encode (textBytes script)).isEmpty then []
    else [Base64.encode (textBytes script)], ?_⟩
  have hword : lex .between (Base64.encode (textBytes script) ++
      ' ' :: ("| base64 -d > ".toList ++ (quoteChars path.toList ++ rest))) = _ := lex_bare_space h
  simp only [Runner.recordScript, String.toList_append, String.toList_ofList, toList_quote,
    List.append_assoc]
  simp [lex, Lexing.step, Lexing.start, separates, isOperator, lex_quote] at hword ⊢
  rw [hword]
  split <;> rfl

theorem tokens_failedScript : ∃ ws, tokens (Runner.failedScript dir sum script) =
    ("printf".toList :: "%s".toList :: ws).map .word ++ .operator ['|'] ::
      [.word "base64".toList, .word "-d".toList, .operator ['>'],
        .word (Cache.failedPath dir sum).toList] := by
  obtain ⟨ws, h⟩ := lex_recordScript script (Cache.failedPath dir sum) []
  rw [List.append_nil] at h
  exact ⟨ws, h⟩

theorem tokens_doneScript : ∃ ws, tokens (Runner.doneScript dir sum script) =
    ("printf".toList :: "%s".toList :: ws).map .word ++ .operator ['|'] ::
      ([.word "base64".toList, .word "-d".toList, .operator ['>'],
        .word (Cache.donePath dir sum).toList] ++ .operator ['&', '&'] ::
          ["rm".toList, "-f".toList, (Cache.failedPath dir sum).toList].map .word) := by
  obtain ⟨ws, h⟩ := lex_recordScript script (Cache.donePath dir sum)
    (" && rm -f " ++ quote (Cache.failedPath dir sum)).toList
  have hrm : lex (.word (Cache.donePath dir sum).toList)
      (" && rm -f " ++ quote (Cache.failedPath dir sum)).toList =
        [.word (Cache.donePath dir sum).toList, .operator ['&', '&'], .word ['r', 'm'],
          .word ['-', 'f'], .word (Cache.failedPath dir sum).toList] := by
    simp [lex, Lexing.step, Lexing.start, separates, isOperator]
  refine ⟨ws, ?_⟩
  rw [tokens, Runner.doneScript, String.append_assoc, String.toList_append, h, hrm]
  rfl

theorem tokens_deleteScript (sums : List String) : tokens (Runner.deleteScript dir sums) =
    (['r', 'm'] :: ['-', 'f'] :: sums.map fun s => (Cache.donePath dir s).toList).map .word := by
  have hwords := lex_words (sums.map (Cache.donePath dir))
  rw [List.map_map, List.map_map] at hwords
  rw [tokens, Runner.deleteScript, String.toList_append]
  simp only [String.reduceToList, List.cons_append, List.nil_append, lex, Lexing.step,
    Lexing.start, separates, isOperator]
  simp
  exact hwords

theorem tokens_makeDirScript : tokens (Runner.makeDirScript dir) =
    ["test".toList, "-d".toList, dir.toList].map .word ++ .operator ['|', '|'] ::
      (["\x7b".toList, "mkdir".toList, "-p".toList, dir.toList].map .word ++
        .operator ['&', '&'] :: (["chmod".toList, "g+w".toList, dir.toList].map .word ++
          .operator [';'] :: ["\x7d".toList].map .word)) := by
  simp [tokens, Runner.makeDirScript, lex, Lexing.step, Lexing.start, separates, isOperator,
    Lexing.close, lex_quote]

theorem effect_failedScript :
    effect (Runner.failedScript dir sum script) = [.write (Cache.failedPath dir sum)] := by
  obtain ⟨ws, h⟩ := tokens_failedScript dir sum script
  rw [effect, h, commands_words_append rfl, List.flatMap_cons, commandEffect_words (by decide)]
  simp [commands, Token.ends, commandEffect, redirections]

theorem effect_doneScript :
    effect (Runner.doneScript dir sum script) =
      [.write (Cache.donePath dir sum), .remove (Cache.failedPath dir sum)] := by
  obtain ⟨ws, h⟩ := tokens_doneScript dir sum script
  rw [effect, h, commands_words_append rfl, List.flatMap_cons, commandEffect_words (by decide)]
  simp [commands, Token.ends, commandEffect, redirections, removal?]

theorem effect_deleteScript (sums : List String) :
    effect (Runner.deleteScript dir sums) = sums.map fun s => .remove (Cache.donePath dir s) := by
  rw [effect, tokens_deleteScript, commands_words, List.flatMap_singleton]
  simp [commandEffect, List.filterMap_map, Function.comp_def, removal?]

theorem effect_makeDirScript : effect (Runner.makeDirScript dir) = [] := by
  simp [effect, tokens_makeDirScript, commands, Token.ends, commandEffect, redirections]

theorem tokens_listingScript (root : String) : tokens (Cache.listingScript root) =
    ["if".toList, "[".toList, "-d".toList, root.toList, "]".toList].map .word ++
      .operator [';'] :: (["then".toList, "find".toList, root.toList, "-type".toList,
        "f".toList, "-name".toList, "*.done".toList].map .word ++
          .operator [';'] :: ["fi".toList].map .word) := by
  simp [tokens, Cache.listingScript, lex, Lexing.step, Lexing.start, separates, isOperator,
    Lexing.close, lex_quote]

theorem effect_listingScript (root : String) : effect (Cache.listingScript root) = [] := by
  rw [effect, tokens_listingScript]
  simp [commands, Token.ends, commandEffect, redirections]

theorem effect_listGroups : effect "id -nG" = [] := by decide

theorem effect_strictShell (elevate : Bool) : effect (strictShell elevate script) = [] := by
  have h := tokens_strictShell elevate script
  cases elevate with
  | false =>
    have hwords : tokens (strictShell false script) =
        ["bash".toList, "-e".toList, "-c".toList, script.toList].map .word := h
    exact effect_of_words hwords (by decide)
  | true =>
    have hwords : tokens (strictShell true script) =
        ["sudo".toList, "-n".toList, "-H".toList, "bash".toList, "-e".toList, "-c".toList,
          script.toList].map .word := h
    exact effect_of_words hwords (by decide)

end Provisioning
