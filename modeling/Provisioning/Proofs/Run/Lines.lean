import Provisioning.Proofs.Run.Streaming
import Provisioning.Proofs.Text.Lines
import Provisioning.Proofs.Text.Utf8

/-!
# The lines of a stream and the text of its bytes

A reader takes the bytes of a stream as they come, cuts off each line at its line feed and makes a
text of that line alone.  It might as well wait for all bytes, make one text of them and cut that:
a line feed is never part of a character, and bytes that are broken off by one are as broken as at
the end.

* `Stream.rawLines_eq` : the lines of bytes do not depend on the pieces in which they come;
* `Utf8.pieces_decodeChars` : cutting and decoding commute;
* `Runner.published_exact` : what a reader tells of a stream, to its end or to a failure.
-/

namespace Provisioning

/-- Whether a line has come to its end. -/
def Text.isEnded {α : Type} [BEq α] (feed : α) (line : List α) : Bool := line.getLast? == some feed

theorem Text.isEnded_eq_false {α : Type} [BEq α] [LawfulBEq α] {feed : α} {line : List α}
    (h : feed ∉ line) : isEnded feed line = false := by
  rw [isEnded, beq_eq_false_iff_ne]
  exact fun hlast => h (List.mem_of_getLast? hlast)

/-! ### Lines of bytes -/

namespace Stream

open Text (isEnded isEnded_eq_false)

/-- Whether reading fails before the end of a stream. -/
def fails : Stream → Bool
  | [] => false
  | .failed _ :: _ => true
  | .bytes _ _ :: s | .interrupted :: s => fails s

theorem fails_eq_false {s : Stream} (h : ∀ message, .failed message ∉ s) : s.fails = false := by
  induction s with
  | nil => rfl
  | cons p s ih =>
    have hs : ∀ message, .failed message ∉ s := fun message hm => h message (.tail p hm)
    cases p with
    | bytes b bs => exact ih hs
    | interrupted => exact ih hs
    | failed message => exact absurd List.mem_cons_self (h message)

theorem fails_append_failed (before : Stream) (message : String) (after : Stream) :
    fails (before ++ .failed message :: after) := by
  induction before with
  | nil => rfl
  | cons p before ih =>
    cases p with
    | bytes b bs => exact ih
    | interrupted => exact ih
    | failed message' => rfl

theorem bytes_append_failed {before : Stream} (h : ∀ message, .failed message ∉ before)
    (message : String) (after : Stream) :
    bytes (before ++ .failed message :: after) = before.bytes := by
  induction before with
  | nil => rfl
  | cons p before ih =>
    have hbefore : ∀ message, .failed message ∉ before := fun m hm => h m (.tail p hm)
    cases p with
    | bytes b bs => exact congrArg (b :: bs ++ ·) (ih hbefore)
    | interrupted => exact ih hbefore
    | failed message => exact absurd List.mem_cons_self (h message)

/-- Reading more bytes completes lines and leaves another one under way. -/
theorem pieces_feed {pending : List UInt8} (h : lineFeed ∉ pending) (bs rest : List UInt8) :
    lineFeed ∉ (feed pending bs).2 ∧ (∀ l ∈ (feed pending bs).1, isEnded lineFeed l) ∧
      Text.pieces lineFeed (pending.reverse ++ (bs ++ rest)) =
        (feed pending bs).1 ++ Text.pieces lineFeed ((feed pending bs).2.reverse ++ rest) := by
  induction bs generalizing pending with
  | nil => exact ⟨h, by simp [feed], rfl⟩
  | cons b bs ih =>
    rw [feed]
    split
    · next hb =>
      subst hb
      obtain ⟨hrest, hlines, hpieces⟩ := ih List.not_mem_nil
      refine ⟨hrest, ?_, ?_⟩
      · simpa [isEnded] using hlines
      · rw [List.cons_append, Text.pieces_append (by simpa using h)]
        simpa using hpieces
    · next hb =>
      have hpending : lineFeed ∉ b :: pending := by
        rw [List.mem_cons, not_or]
        exact ⟨Ne.symm hb, h⟩
      simpa using ih hpending

/-- The lines of a stream are those of all its bytes, but for one under way where reading fails. -/
theorem rawLines_eq {pending : List UInt8} (h : lineFeed ∉ pending) (s : Stream) :
    rawLines pending s = (Text.pieces lineFeed (pending.reverse ++ bytes s)).filter
      fun l => isEnded lineFeed l || !fails s := by
  induction s generalizing pending with
  | nil =>
    rw [rawLines, bytes, List.append_nil, Text.pieces_of_not_mem (by simpa using h)]
    cases pending <;> simp [fails]
  | cons p s ih =>
    cases p with
    | bytes b bs =>
      obtain ⟨hrest, hlines, hpieces⟩ := pieces_feed h (b :: bs) (bytes s)
      have hended : (feed pending (b :: bs)).1.filter (fun l => isEnded lineFeed l || !fails s) =
          (feed pending (b :: bs)).1 := List.filter_eq_self.2 fun l hl => by simp [hlines l hl]
      rw [bytes, hpieces, List.filter_append, fails, hended]
      exact congrArg _ (ih hrest)
    | interrupted => exact ih h
    | failed message =>
      rw [rawLines, bytes, List.append_nil, Text.pieces_of_not_mem (by simpa using h)]
      have hnot : isEnded lineFeed pending.reverse = false := isEnded_eq_false (by simpa using h)
      split <;> simp [fails, hnot]

end Stream

/-! ### Lines of text -/

namespace Utf8

/-- It makes no difference whether bytes are cut at line feeds before they are decoded or after. -/
theorem pieces_decodeChars (bs : List UInt8) :
    Text.pieces '\n' (decodeChars bs) = (Text.pieces Stream.lineFeed bs).map decodeChars := by
  -- by the length, since what follows the first line feed is taken next
  induction hn : bs.length using Nat.strongRecOn generalizing bs with
  | _ n ih =>
    by_cases hfeed : Stream.lineFeed ∈ bs
    · obtain ⟨line, rest, rfl, hline⟩ := List.eq_append_cons_of_mem hfeed
      have hlt : rest.length < n := by
        rw [← hn, List.length_append, List.length_cons]
        omega
      have hchars : decodeChars (line ++ [Stream.lineFeed]) = decodeChars line ++ ['\n'] := by
        rw [Stream.lineFeed, decodeChars_append_feed, decodeChars]
      rw [Text.pieces_append hline, List.map_cons, hchars, ← ih _ hlt rest rfl, Stream.lineFeed,
        decodeChars_append_feed, Text.pieces_append (feed_not_mem_decodeChars hline)]
    · rw [Text.pieces_of_not_mem hfeed, Text.pieces_of_not_mem (feed_not_mem_decodeChars hfeed)]
      cases bs with
      | nil => simp [decodeChars]
      | cons b bs => simp [decodeChars]

theorem isEnded_decodeChars {bs line : List UInt8} (h : line ∈ Text.pieces Stream.lineFeed bs) :
    Text.isEnded '\n' (decodeChars line) = Text.isEnded Stream.lineFeed line := by
  obtain ⟨q, hq, rfl | rfl⟩ := Text.mem_pieces h
  · rw [Text.isEnded_eq_false hq, Text.isEnded_eq_false (feed_not_mem_decodeChars hq)]
  · rw [Stream.lineFeed, decodeChars_append_feed]
    simp [Text.isEnded, decodeChars]

end Utf8

/-! ### What a reader tells -/

/-- A line of text without the line feed and the carriage returns at its end. -/
def Text.unended (line : List Char) : String :=
  String.ofList (dropWhileEnd (fun c => c == '\n' || c == '\r') line)

theorem Stream.lines_eq (s : Stream) :
    s.lines = ((Text.pieces '\n' (Utf8.decodeChars (bytes s))).filter fun l =>
      Text.isEnded '\n' l || !fails s).map Text.unended := by
  have hkept : (Text.pieces '\n' (Utf8.decodeChars (bytes s))).filter
        (fun l => Text.isEnded '\n' l || !fails s) =
      ((Text.pieces lineFeed (bytes s)).filter fun l => Text.isEnded lineFeed l || !fails s).map
        Utf8.decodeChars := by
    rw [Utf8.pieces_decodeChars, List.filter_map]
    refine congrArg _ (List.filter_congr fun line hline => ?_)
    rw [Function.comp_apply, Utf8.isEnded_decodeChars hline]
  rw [lines, rawLines_eq List.not_mem_nil, List.reverse_nil, List.nil_append, hkept, List.map_map]
  rfl

namespace Runner

/-- What a reader tells of a stream that comes to its end are the pieces of the text of all bytes,
cut after each line feed.  Where reading fails these are the pieces of what was read before, but
only those that have come to their ends. -/
theorem published_exact (origin : Origin) (s : Stream) :
    ((∀ message, .failed message ∉ s) →
      published (readerSteps origin (some s)) =
        (Text.pieces '\n' (Utf8.decodeChars (Stream.bytes s))).map
          fun line => ⟨origin, Text.unended line⟩) ∧
    ∀ before message after, s = before ++ .failed message :: after →
      (∀ message, .failed message ∉ before) →
      published (readerSteps origin (some s)) =
        ((Text.pieces '\n' (Utf8.decodeChars (Stream.bytes before))).filter (Text.isEnded '\n')).map
          fun line => ⟨origin, Text.unended line⟩ := by
  rw [published_readerSteps, Option.getD_some, Stream.lines_eq, List.map_map]
  refine ⟨fun hs => ?_, ?_⟩
  · rw [Stream.fails_eq_false hs]
    simp [Function.comp_def]
  · rintro before message after rfl hbefore
    rw [Stream.fails_append_failed, Stream.bytes_append_failed hbefore]
    simp [Function.comp_def]

/-- A character that is broken off by a line feed, an interruption, and lines that end in carriage
returns: to the end of the stream, and to a failure in the middle of a line. -/
theorem broken_published :
    published (readerSteps .stdout
        (some [.bytes 0xE2 [0x82], .interrupted, .bytes 10 [104, 13], .bytes 13 [10, 0xC3]])) =
      [⟨.stdout, "\uFFFD"⟩, ⟨.stdout, "h"⟩, ⟨.stdout, "\uFFFD"⟩] ∧
    published (readerSteps .stderr
        (some [.bytes 0xC3 [], .bytes 10 [10, 104], .failed "reset", .bytes 105 [10]])) =
      [⟨.stderr, "\uFFFD"⟩, ⟨.stderr, ""⟩] := by
  refine ⟨((published_exact _ _).1 (by simp)).trans (by decide +kernel), ?_⟩
  exact ((published_exact _ _).2 [.bytes 0xC3 [], .bytes 10 [10, 104]] "reset" [.bytes 105 [10]]
    rfl (by simp)).trans (by decide +kernel)

end Runner

end Provisioning
