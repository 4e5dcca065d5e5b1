import Provisioning.Command
import Provisioning.Proofs.Shell.Line
import Provisioning.Proofs.Text.Base64
import Provisioning.Proofs.Text.Utf8

/-!
# The scripts that write files and make directories

The script of a file or directory is cut into lines, and each line into words, as it was put
together: whatever quotes, line feeds or operators stand in a path, a content, permission bits or an
owner's name, they end no line and no word.  The content travels in base64 and arrives byte by byte.

* `Command.fileItems`, `Command.directoryItems` : the lines by their parts;
* `Command.lines_file`, `Command.lines_directory` : the scripts are cut into these lines;
* `Command.files_shipped` : what a shell reads of the scripts, and what of them stands outside
  quotes.
-/

namespace Provisioning

open Shell

namespace Command

/-! ### The parts of the lines -/

/-- The words of the lines that set the owner and then the permission bits. -/
def ownershipWords (path : String) (mode? owner? : Option String) : List (List String) :=
  (owner?.map fun owner => ["chown", owner, path]).toList ++
    (mode?.map fun mode => ["chmod", mode, path]).toList

/-- The words of the line that makes the directory of a file, unless that is the root. -/
def parentWords (path : String) : List (List String) :=
  ((Path.parent? path).filter (· ≠ "/")).toList.map fun dir => ["mkdir", "-p", dir]

/-- A line of words. -/
def wordItems (ws : List String) : List Item := ws.map .word

/-- The parts of the line that writes the content of a file. -/
def contentItems (file : FileSpec) : List Item :=
  [.word "printf", .word "%s",
    .bare (String.ofList (Base64.encode (textBytes file.content)))
      (by simpa using Base64.all_isBare_encode _),
    .operator '|' (by decide), .word "base64", .word "-d", .operator '>' (by decide),
    .word file.path]

/-- The parts of the lines that write a file. -/
def fileItems (file : FileSpec) : List (List Item) :=
  (parentWords file.path).map wordItems ++ contentItems file ::
    (ownershipWords file.path file.mode? file.owner?).map wordItems

/-- The parts of the lines that make a directory. -/
def directoryItems (dir : DirectorySpec) : List (List Item) :=
  wordItems ["mkdir", "-p", dir.path] ::
    (ownershipWords dir.path dir.mode? dir.owner?).map wordItems

/-! ### The lines as texts -/

@[simp] theorem line_wordItems_singleton (w : String) : line (wordItems [w]) = quote w :=
  line_singleton _

@[simp] theorem line_wordItems_cons (w v : String) (ws : List String) :
    line (wordItems (w :: v :: ws)) = (quote w ++ " ") ++ line (wordItems (v :: ws)) := by
  rw [← String.toList_inj, wordItems, List.map_cons, List.map_cons, toList_line_cons]
  simp [wordItems, Item.text]

theorem ownershipLines_eq (path : String) (mode? owner? : Option String) :
    ownershipLines path mode? owner? =
      (ownershipWords path mode? owner?).map fun ws => line (wordItems ws) := by
  have hchown : quote "chown" ++ " " = "chown " := by decide
  have hchmod : quote "chmod" ++ " " = "chmod " := by decide
  cases mode? <;> cases owner? <;>
    simp only [ownershipLines, ownershipWords, line_wordItems_cons, hchown, hchmod,
      line_wordItems_singleton, Option.map_some, Option.map_none, Option.toList_some,
      Option.toList_none, List.append_nil, List.nil_append, List.map_cons, List.map_nil,
      String.append_assoc, List.cons_append]

theorem mkdir_eq (dir : String) :
    "mkdir -p " ++ quote dir = line (wordItems ["mkdir", "-p", dir]) := by
  have hmkdir : quote "mkdir" ++ " " ++ (quote "-p" ++ " ") = "mkdir -p " := by decide
  rw [line_wordItems_cons, line_wordItems_cons, line_wordItems_singleton, ← String.append_assoc,
    hmkdir]

theorem parentLines_eq (path : String) :
    parentLines path = (parentWords path).map fun ws => line (wordItems ws) := by
  rw [parentLines, parentWords]
  cases Path.parent? path with
  | none => rfl
  | some dir => by_cases hroot : dir = "/" <;> simp [Option.filter, hroot, mkdir_eq]

theorem contentLine_eq (file : FileSpec) :
    FileSpec.contentLine file = line (contentItems file) := by
  have hprintf : quote "printf" = "printf" := by decide
  have hformat : quote "%s" = "'%s'" := by decide
  have hbase64 : quote "base64" = "base64" := by decide
  have hdecode : quote "-d" = "-d" := by decide
  rw [← String.toList_inj]
  simp [FileSpec.contentLine, contentItems, toList_line_cons, Item.text, hprintf, hformat, hbase64,
    hdecode]

theorem fileLines_eq (file : FileSpec) :
    FileSpec.scriptLines file = (fileItems file).map line := by
  simp [FileSpec.scriptLines, fileItems, parentLines_eq, contentLine_eq, ownershipLines_eq,
    Function.comp_def]

theorem directoryLines_eq (dir : DirectorySpec) :
    DirectorySpec.scriptLines dir = (directoryItems dir).map line := by
  simp only [DirectorySpec.scriptLines, directoryItems, mkdir_eq, ownershipLines_eq, List.map_cons,
    List.map_map, Function.comp_def]

/-! ### What is read of them -/

theorem tokens_words (ws : List String) : (wordItems ws).flatMap Item.tokens = wordTokens ws := by
  induction ws with
  | nil => rfl
  | cons w ws ih => exact congrArg (_ :: ·) ih

/-- Lines by their parts are those of the script that they make up. -/
theorem lines_parts {parts : List (List Item)} (hne : parts ≠ []) :
    Shell.lines (Text.join "\n" (parts.map line)) = parts.map line := by
  refine lines_join (by simpa using hne) fun l hl => ?_
  obtain ⟨items, -, rfl⟩ := List.mem_map.1 hl
  exact isWhole_line items

theorem lines_file (file : FileSpec) :
    Shell.lines (script (.writeFile file)) = (fileItems file).map line := by
  rw [script, fileLines_eq, lines_parts (by simp [fileItems])]

theorem lines_directory (dir : DirectorySpec) :
    Shell.lines (script (.mkdir dir)) = (directoryItems dir).map line := by
  rw [script, directoryLines_eq, lines_parts (by simp [directoryItems])]

theorem map_tokens_line (parts : List (List Item)) :
    (parts.map line).map tokens = parts.map fun items => items.flatMap Item.tokens := by
  rw [List.map_map]
  exact List.map_congr_left fun items _ => tokens_line items

theorem textBytes_eq_nil {s : String} : textBytes s = [] ↔ s = "" := by
  refine ⟨fun h => ?_, fun h => h ▸ rfl⟩
  rw [← Utf8.decode_textBytes s, h]
  simp [Utf8.decode, Utf8.decodeChars]

/-- What a shell reads of the line that writes the content of a file. -/
def contentTokens (file : FileSpec) : List Token :=
  wordTokens ["printf", "%s"] ++
    (if file.content = "" then [] else [.word (Base64.encode (textBytes file.content))]) ++
    .operator ['|'] :: wordTokens ["base64", "-d"] ++ .operator ['>'] :: wordTokens [file.path]

theorem tokens_content (file : FileSpec) :
    (contentItems file).flatMap Item.tokens = contentTokens file := by
  have hempty : (Base64.encode (textBytes file.content)).isEmpty = decide (file.content = "") := by
    rw [Bool.eq_iff_iff, List.isEmpty_iff, Base64.encode_eq_nil, textBytes_eq_nil,
      decide_eq_true_iff]
  simp [contentItems, contentTokens, Item.tokens, wordTokens, hempty]

theorem not_mem_wordItems {c : Char} {h} {ws : List String} : .operator c h ∉ wordItems ws := by
  simp [wordItems]

/-- Whether nothing of a line stands outside quotes but plain characters and the operators of the
line that writes a file. -/
def IsTame (l : String) : Prop :=
  ∀ c ∈ exposed .between l.toList, isPlain c ∨ c = '|' ∨ c = '>'

theorem isTame_wordItems (ws : List String) : IsTame (line (wordItems ws)) := by
  intro c hc
  rcases exposed_line hc with h | ⟨_, hmem⟩
  · exact .inl h
  · exact absurd hmem not_mem_wordItems

theorem isTame_contentItems (file : FileSpec) : IsTame (line (contentItems file)) := by
  intro c hc
  rcases exposed_line hc with h | ⟨_, hmem⟩
  · exact .inl h
  · exact .inr (by simpa [contentItems] using hmem)

theorem tame_fileItems (file : FileSpec) : ∀ l ∈ (fileItems file).map line, IsTame l := by
  simp only [fileItems, List.map_append, List.map_cons, List.map_map, List.forall_mem_append,
    List.forall_mem_cons, List.forall_mem_map, Function.comp_apply]
  exact ⟨fun ws _ => isTame_wordItems ws, isTame_contentItems file, fun ws _ => isTame_wordItems ws⟩

theorem tame_directoryItems (dir : DirectorySpec) :
    ∀ l ∈ (directoryItems dir).map line, IsTame l := by
  simp only [directoryItems, List.map_cons, List.map_map, List.forall_mem_cons, List.forall_mem_map,
    Function.comp_apply]
  exact ⟨isTame_wordItems _, fun ws _ => isTame_wordItems ws⟩

/-- Whether a line hands over a content. -/
def isPrintf (ts : List Token) : Bool := ts.head? == some (.word "printf".toList)

theorem countP_isPrintf (path : String) (file : FileSpec) (mode? owner? : Option String) :
    ((parentWords path).map wordTokens ++
      contentTokens file :: (ownershipWords path mode? owner?).map wordTokens).countP isPrintf =
        1 := by
  have hparent : ((parentWords path).map wordTokens).countP isPrintf = 0 := by
    rw [parentWords]
    cases (Path.parent? path).filter (· ≠ "/") with
    | none => rfl
    | some dir => simp [isPrintf, wordTokens]
  have hownership : ((ownershipWords path mode? owner?).map wordTokens).countP isPrintf = 0 := by
    cases mode? <;> cases owner? <;> simp [ownershipWords, isPrintf, wordTokens]
  have hcontent : isPrintf (contentTokens file) = true := by
    simp [isPrintf, contentTokens, wordTokens]
  rw [List.countP_append, List.countP_cons, hparent, hownership, hcontent]
  rfl

/-- The scripts of files and directories, as a shell reads them: line by line, and word by word.
The content of a file is handed over in base64, and decoded again it is the content. -/
theorem files_shipped :
    (∀ file : FileSpec,
      let encoded := Base64.encode (textBytes file.content)
      let content := "printf '%s' " ++ String.ofList encoded ++ " | base64 -d > " ++ quote file.path
      let lines := Shell.lines (script (.writeFile file))
      lines = parentLines file.path ++
        content :: ownershipLines file.path file.mode? file.owner? ∧
      lines.map tokens = (parentWords file.path).map wordTokens ++
        contentTokens file :: (ownershipWords file.path file.mode? file.owner?).map wordTokens ∧
      encoded.all Base64.isChar ∧ Base64.decode encoded = some (textBytes file.content) ∧
      (lines.map tokens).countP isPrintf = 1 ∧
      ∀ l ∈ lines, IsTame l) ∧
    ∀ dir : DirectorySpec,
      let lines := Shell.lines (script (.mkdir dir))
      lines = ("mkdir -p " ++ quote dir.path) :: ownershipLines dir.path dir.mode? dir.owner? ∧
      lines.map tokens = wordTokens ["mkdir", "-p", dir.path] ::
        (ownershipWords dir.path dir.mode? dir.owner?).map wordTokens ∧
      ∀ l ∈ lines, IsTame l := by
  constructor
  · intro file encoded content lines
    have hlines : lines = (fileItems file).map line := lines_file file
    have hread : lines.map tokens = (parentWords file.path).map wordTokens ++
        contentTokens file :: (ownershipWords file.path file.mode? file.owner?).map wordTokens := by
      rw [hlines, map_tokens_line]
      simp [fileItems, tokens_words, tokens_content, Function.comp_def]
    refine ⟨?_, hread, Base64.all_isChar_encode _, Base64.decode_encode _, ?_, ?_⟩
    · rw [hlines, ← fileLines_eq]
      rfl
    · rw [hread, countP_isPrintf]
    · rw [hlines]
      exact tame_fileItems file
  · intro dir lines
    have hlines : lines = (directoryItems dir).map line := lines_directory dir
    refine ⟨?_, ?_, ?_⟩
    · rw [hlines, ← directoryLines_eq]
      rfl
    · rw [hlines, map_tokens_line]
      simp [directoryItems, tokens_words, Function.comp_def]
    · rw [hlines]
      exact tame_directoryItems dir

/-- Quotes, a line feed and an operator in a path stay in its word. -/
example : Shell.lines (script (.mkdir { path := "/srv/it's\n| here", owner? := some "o k" })) =
    ["mkdir -p '/srv/it'\\''s\n| here'", "chown 'o k' '/srv/it'\\''s\n| here'"] := by
  decide +kernel

end Command

end Provisioning
