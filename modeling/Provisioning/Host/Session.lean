import Provisioning.Event.Basic
import Provisioning.Text.Blank
import Provisioning.Text.Utf8

/-!
# Sessions with a host

A host is asked to run one script at a time.  Its reply says how the whole session goes: what its
two streams of output deliver, whether it takes input, and how it ends.  `Session.lines` gives the
lines of a stream as they are completed, `Stream.bytes` all that a stream delivers.
-/

namespace Provisioning

/-- Why a script cannot be run or waited for. -/
inductive TransportError where
  /-- The program that should run it cannot be started. -/
  | spawn (program message : String)
  /-- Something is asked of a process that does not run. -/
  | notStarted
  /-- Input or output fails. -/
  | io (message : String)
deriving DecidableEq, Repr

/-- What is said of a failure. -/
def TransportError.message : TransportError → String
  | spawn program message => "failed to spawn " ++ program ++ ": " ++ message
  | notStarted => "process was not started"
  | io message => "process I/O error: " ++ message

/-- A script to be run, and the lines that it gets as input. -/
structure Call where
  /-- The script. -/
  shell : String
  /-- The lines of its input. -/
  input : List String := []
deriving DecidableEq, Repr

/-! ### Streams of output -/

/-- The outcome of reading a stream once. -/
inductive Piece where
  /-- Some bytes, and at least one: to read none is to be at the end of the stream. -/
  | bytes (b : UInt8) (bs : List UInt8)
  /-- Nothing yet; reading goes on. -/
  | interrupted
  /-- Nothing any more, because reading fails. -/
  | failed (message : String)
deriving DecidableEq, Repr

/-- The outcomes of reading a stream to its end. -/
abbrev Stream := List Piece

namespace Stream

/-- A stream that delivers some bytes, if there are any, all at once. -/
def ofBytes : List UInt8 → Stream
  | [] => []
  | b :: bs => [.bytes b bs]

/-- All bytes that a stream delivers before it ends or fails. -/
def bytes : Stream → List UInt8
  | [] => []
  | .bytes b bs :: s => b :: bs ++ bytes s
  | .interrupted :: s => bytes s
  | .failed _ :: _ => []

@[simp] theorem bytes_ofBytes (bs : List UInt8) : (ofBytes bs).bytes = bs := by
  cases bs <;> simp [ofBytes, bytes]

/-- The byte at which lines end. -/
def lineFeed : UInt8 := 10

/-- The lines that some bytes complete, and the bytes of the line under way.  The bytes already
there are given in reverse, and so are those left over. -/
def feed : (pending : List UInt8) → List UInt8 → List (List UInt8) × List UInt8
  | pending, [] => ([], pending)
  | pending, b :: bs =>
    if b = lineFeed then
      let (ls, rest) := feed [] bs
      ((b :: pending).reverse :: ls, rest)
    else feed (b :: pending) bs

/-- The lines of a stream, each with its line feed.  At the end of the stream a line under way
counts; where reading fails it is lost. -/
def rawLines : (pending : List UInt8) → Stream → List (List UInt8)
  | pending, [] => if pending.isEmpty then [] else [pending.reverse]
  | pending, .bytes b bs :: s =>
    let (ls, rest) := feed pending (b :: bs)
    ls ++ rawLines rest s
  | pending, .interrupted :: s => rawLines pending s
  | _, .failed _ :: _ => []

/-- The text of a line, without the line feed and carriage returns at its end.  Bytes that are no
character are replaced. -/
def lineText (bs : List UInt8) : String :=
  String.ofList (Text.dropWhileEnd (fun c => c == '\n' || c == '\r') (Utf8.decodeChars bs))

/-- The lines of a stream as texts. -/
def lines (s : Stream) : List String := (rawLines [] s).map lineText

/-- All that a stream delivers, as a text. -/
def text (s : Stream) : String := Utf8.decode s.bytes

end Stream

/-! ### Input -/

/-- What makes writing fail.  Given what is written and the piece that is to follow, it says how
many bytes of that are still taken and why no more are; nothing if there is no failure. -/
abbrev Stop := List UInt8 → List UInt8 → Option (Nat × String)

namespace Stop

/-- After so many line feeds no piece is taken. -/
def afterFeeds (n : Nat) (message : String) : Stop := fun written _ =>
  if n ≤ written.count Stream.lineFeed then some (0, message) else none

/-- After so many bytes no byte is taken, be it in the middle of a line. -/
def afterBytes (n : Nat) (message : String) : Stop := fun written _ =>
  some (n - written.length, message)

end Stop

/-- How a session takes its input. -/
inductive Intake where
  /-- It takes none. -/
  | absent
  /-- It takes lines.  Writing a piece may fail with a message, and so may, at the end, handing on
  what is written. -/
  | open (stop : Stop := fun _ _ => none) (flushError? : Option String := none)

namespace Intake

/-- What is written when more pieces are to follow, and the message if writing fails.  It fails at a
piece that is not taken to its end; then nothing is written any more. -/
def put (stop : Stop) (written : List UInt8) : List (List UInt8) → List UInt8 × Option String
  | [] => (written, none)
  | p :: ps =>
    match (stop written p).filter (·.1 < p.length) with
    | some (n, message) => (written ++ p.take n, some message)
    | none => put stop (written ++ p) ps

/-- The pieces in which a line is written. -/
def linePieces (line : String) : List (List UInt8) := [textBytes line, textBytes "\n"]

/-- What is written of some lines, and the message if that fails. -/
def accept (i : Intake) (lines : List String) : List UInt8 × Option String :=
  match i with
  | absent => ([], none)
  | .open stop flushError? =>
    let (written, e) := put stop [] (lines.flatMap linePieces)
    (written, e <|> flushError?)

end Intake

/-! ### Sessions -/

/-- How a session goes. -/
structure Session where
  /-- How it takes input. -/
  intake : Intake := .open
  /-- What it prints, if that can be read. -/
  stdout? : Option Stream := some []
  /-- Which complaints it prints, if these can be read. -/
  stderr? : Option Stream := some []
  /-- The exit code; −1 if a signal ended it. -/
  exit : Except TransportError Int := .ok 0
  /-- The order in which the readers of the two streams get their turns.  When it is used up,
  standard output is read to its end first. -/
  turns : List Origin := []
  /-- How long it takes, in milliseconds. -/
  millis : Nat := 0

/-- What comes of a call. -/
inductive Reply where
  /-- There is no session. -/
  | refused (e : TransportError)
  /-- There is one, and this is how it goes. -/
  | session (s : Session)

/-- A session without input or output that ends well. -/
def Reply.silent : Reply := .session {}

/-- The items of two lists in the order of some turns; a turn whose list is used up is passed
over. -/
def interleave {α : Type} : List Origin → List α → List α → List α
  | [], out, err => out ++ err
  | .stdout :: ts, a :: out, err => a :: interleave ts out err
  | .stdout :: ts, [], err => interleave ts [] err
  | .stderr :: ts, out, a :: err => a :: interleave ts out err
  | .stderr :: ts, out, [] => interleave ts out []

end Provisioning
