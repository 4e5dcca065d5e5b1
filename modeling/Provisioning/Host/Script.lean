import Provisioning.Host.Session

/-!
# What a run asks for

A `Talk` asks a host for things and goes on with its replies; a `Script` also tells what happens
and has logs written beside it.  Neither does anything by itself: `Talk.runWith` and
`Script.runWith` have all that is asked answered in a monad of choice, a state of a pretended
host as well as the real world.
-/

namespace Provisioning

/-! ### Talks -/

/-- Questions to a host, one after another, and a result in the end. -/
inductive Talk (α : Type) where
  /-- It is over. -/
  | done (a : α)
  /-- A script is to be run. -/
  | ask (call : Call) (next : Reply → Talk α)
  /-- Sessions that are kept open are to be closed, so that the next one logs in afresh. -/
  | reset (next : Except TransportError Unit → Talk α)

namespace Talk

/-- One talk after another. -/
def bind {α β : Type} (t : Talk α) (f : α → Talk β) : Talk β :=
  match t with
  | done a => f a
  | ask call next => ask call fun r => (next r).bind f
  | reset next => reset fun r => (next r).bind f

instance : Monad Talk where
  pure := done
  bind := bind

/-- The answers to a talk's questions, in a monad. -/
structure Host (m : Type → Type) where
  /-- How a script is run. -/
  ask : Call → m Reply
  /-- How open sessions are closed. -/
  reset : m (Except TransportError Unit)

/-- The result of a talk with a host. -/
def runWith {m : Type → Type} [Monad m] (h : Host m) {α : Type} : Talk α → m α
  | done a => pure a
  | ask call next => do (next (← h.ask call)).runWith h
  | reset next => do (next (← h.reset)).runWith h

end Talk

/-! ### Output -/

/-- All that a session delivered, and how it ended. -/
structure Output where
  /-- The exit code. -/
  exitCode : Int
  /-- What it printed. -/
  stdout : String
  /-- Its complaints. -/
  stderr : String
deriving DecidableEq, Repr

/-- Whether a session ended well. -/
def Output.succeeded (o : Output) : Bool := o.exitCode == 0

/-- The complaints without the blanks around them. -/
def Output.complaint (o : Output) : String := Text.trim o.stderr

/-- All that a session delivers; if it cannot be waited for, why. -/
def Session.output (s : Session) : Except TransportError Output :=
  s.exit.map fun code => ⟨code, (s.stdout?.getD []).text, (s.stderr?.getD []).text⟩

/-- All that a reply delivers, or why there is nothing. -/
def Reply.output : Reply → Except TransportError Output
  | refused e => .error e
  | session s => s.output

/-- Runs a script without input and collects its output. -/
def capture (shell : String) : Talk (Except TransportError Output) :=
  .ask ⟨shell, []⟩ fun r => .done r.output

/-! ### Scripts -/

/-- A line of output on its way to a log. -/
structure LogLine where
  /-- Where it comes from. -/
  origin : Origin
  /-- Its text. -/
  text : String
deriving DecidableEq, Repr

/-- A line as it stands in a log. -/
def LogLine.render (l : LogLine) (time : String) : String :=
  time ++ " [" ++ l.origin.word ++ "] " ++ l.text

/-- A log to be written. -/
structure LogJob where
  /-- The directory of the task. -/
  dir : String
  /-- The checksum of the command. -/
  sum : String
  /-- The lines, in the order in which they come. -/
  lines : List LogLine
deriving DecidableEq, Repr

/-- Why a log is not written. -/
inductive LogError where
  /-- The session that writes it fails. -/
  | session (exitCode : Int)
  /-- The session takes no input. -/
  | noInput
  /-- A line cannot be written. -/
  | write (message : String)
  /-- The log cannot be put into its place. -/
  | finalize (exitCode : Int) (stderr : String)
  /-- A script cannot be run. -/
  | transport (e : TransportError)
deriving DecidableEq, Repr

/-- What is said of a log that is not written. -/
def LogError.message : LogError → String
  | session exitCode => "log session exited with code " ++ toString exitCode
  | noInput => "log session has no stdin"
  | write message => "writing log line failed: " ++ message
  | finalize exitCode stderr =>
    "finalizing log failed with exit code " ++ toString exitCode ++ ": " ++ stderr
  | transport e => e.message

/-- What a log suffers whose writer dies. -/
def LogError.died : LogError := .write "log relay panicked"

/-- All that a run on one host asks for and tells, and a result in the end. -/
inductive Script (α : Type) where
  /-- It is over. -/
  | done (a : α)
  /-- A script is to be run. -/
  | ask (call : Call) (next : Reply → Script α)
  /-- Sessions that are kept open are to be closed. -/
  | reset (next : Except TransportError Unit → Script α)
  /-- Something has happened. -/
  | tell (what : Happening) (next : Script α)
  /-- A log is to be written, apart from the run itself. -/
  | log (job : LogJob) (next : Except LogError Unit → Script α)

namespace Script

/-- One script after another. -/
def bind {α β : Type} (s : Script α) (f : α → Script β) : Script β :=
  match s with
  | done a => f a
  | ask call next => ask call fun r => (next r).bind f
  | reset next => reset fun r => (next r).bind f
  | tell what next => tell what (next.bind f)
  | log job next => log job fun r => (next r).bind f

instance : Monad Script where
  pure := done
  bind := bind

/-- A talk as part of a script. -/
def ofTalk {α : Type} : Talk α → Script α
  | .done a => done a
  | .ask call next => ask call fun r => ofTalk (next r)
  | .reset next => reset fun r => ofTalk (next r)

instance : MonadLift Talk Script := ⟨ofTalk⟩

/-- What a script asks for, answered in a monad. -/
structure Handler (m : Type → Type) extends Talk.Host m where
  /-- How it is told what happens. -/
  tell : Happening → m Unit
  /-- How a log is written. -/
  log : LogJob → m (Except LogError Unit)

/-- The result of a script. -/
def runWith {m : Type → Type} [Monad m] (h : Handler m) {α : Type} : Script α → m α
  | done a => pure a
  | ask call next => do (next (← h.ask call)).runWith h
  | reset next => do (next (← h.reset)).runWith h
  | tell what next => do
    h.tell what
    next.runWith h
  | log job next => do (next (← h.log job)).runWith h

/-- A script after the first thing that it asks for or tells. -/
def step {m : Type → Type} [Monad m] (h : Handler m) {α : Type} : Script α → m (Script α)
  | done a => pure (done a)
  | ask call next => do return next (← h.ask call)
  | reset next => do return next (← h.reset)
  | tell what next => do
    h.tell what
    return next
  | log job next => do return next (← h.log job)

/-- It makes no difference to a run if it is held up after its first step. -/
theorem runWith_step {m : Type → Type} [Monad m] [LawfulMonad m] (h : Handler m) {α : Type}
    (s : Script α) : (s.step h >>= fun s' => s'.runWith h) = s.runWith h := by
  cases s <;> simp [step, runWith]

end Script

end Provisioning
