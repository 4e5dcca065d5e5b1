import Mathlib.Logic.Function.Basic
import Mathlib.Logic.Relation
import Provisioning.Proofs.Run.Events
import Provisioning.Run.Log

/-!
# The output of a command on its way

While a command runs three parties are at work: a reader for each of its streams, which publishes
every line and sends it on, and a writer, which takes what is sent from a queue and puts it into the
log through a session of its own.  They do so in any order.  When the readers and the writer have
come to their ends, the command is told of as finished.

* `Pen.IsOf`, `Log.written_of_isOf` : a log that is written line by line comes to what it comes to
  with all lines at once;
* `Streaming.turn` : what each of the parties does when it has its turn;
* `Streaming.Inv`, `Streaming.Inv.turn` : no line is lost, doubled or out of order, at any moment;
* `Streaming.exists_ended` : nobody waits for ever;
* `Streaming.lines_kept` : what has happened after any turns, and that in the end it is what a
  command does whose readers have turns of some order.
-/

namespace Provisioning

/-! ### Writing line by line -/

/-- What is written to a session so far, and why writing failed, if it did. -/
structure Pen where
  /-- The bytes that are written. -/
  written : List UInt8 := []
  /-- Why writing failed. -/
  fault? : Option String := none

/-- What makes writing to a session fail. -/
def Intake.stop : Intake → Stop
  | absent => fun _ _ => none
  | .open stop _ => stop

/-- How handing on fails at the end, if it does. -/
def Intake.flushFault? : Intake → Option String
  | absent => none
  | .open _ flushError? => flushError?

/-- A line is written.  After a failure nothing is written any more. -/
def Pen.write (stop : Stop) (p : Pen) (line : String) : Pen :=
  match p.fault? with
  | some _ => p
  | none =>
    let (written, fault?) := Intake.put stop p.written (Intake.linePieces line)
    ⟨written, fault?⟩

namespace Intake

variable {stop : Stop}

/-- Pieces are written after others, unless writing those has failed. -/
theorem put_append (written : List UInt8) (ps qs : List (List UInt8)) :
    put stop written (ps ++ qs) =
      match put stop written ps with
      | (written, some e) => (written, some e)
      | (written, none) => put stop written qs := by
  induction ps generalizing written with
  | nil => rfl
  | cons p ps ih =>
    rw [List.cons_append, put, put]
    cases (stop written p).filter (·.1 < p.length) with
    | some stopped => rfl
    | none => exact ih _

/-- What is written without a failure is everything. -/
theorem put_of_none {written : List UInt8} {ps : List (List UInt8)}
    (h : (put stop written ps).2 = none) : (put stop written ps).1 = written ++ ps.flatten := by
  induction ps generalizing written with
  | nil => simp [put]
  | cons p ps ih =>
    rw [put] at h ⊢
    cases hstop : (stop written p).filter (·.1 < p.length) with
    | some stopped => simp [hstop] at h
    | none =>
      simp only [hstop] at h ⊢
      rw [ih h, List.flatten_cons, List.append_assoc]

end Intake

/-- Whether a pen is one with which some lines were written, or tried to be. -/
def Pen.IsOf (stop : Stop) (p : Pen) (lines : List String) : Prop :=
  Intake.put stop [] (lines.flatMap Intake.linePieces) = (p.written, p.fault?)

theorem Pen.IsOf.write {stop : Stop} {p : Pen} {lines : List String} (h : p.IsOf stop lines)
    (line : String) : (p.write stop line).IsOf stop (lines ++ [line]) := by
  rw [IsOf] at h ⊢
  rw [List.flatMap_append, Intake.put_append, h]
  rcases p with ⟨written, _ | fault⟩
  · simp [Pen.write]
  · rfl

namespace Log

/-- Why there is no log where the session takes no input. -/
def unheard (s : Session) : LogError :=
  match s.exit with
  | .error e => .transport e
  | .ok _ => .noInput

/-- What a session comes to whose input is closed, after a fault or without one. -/
def closed (s : Session) (fault? : Option String) : Except LogError Unit :=
  match s.exit with
  | .error e => .error (.transport e)
  | .ok code =>
    match fault? with
    | some message => .error (.write message)
    | none => if code = 0 then .ok () else .error (.session code)

/-- What the move of a file into its place comes to. -/
def placed (reply : Reply) : Except LogError Unit :=
  match reply.output with
  | .error e => .error (.transport e)
  | .ok out => if out.succeeded then .ok () else .error (.finalize out.exitCode out.complaint)

theorem written_of_absent {s : Session} (h : s.intake = .absent) (lines : List String) :
    written s lines = .error (unheard s) := by
  rw [written, unheard, h]
  cases s.exit <;> rfl

theorem written_of_isOf {s : Session} (h : s.intake ≠ .absent) {p : Pen} {lines : List String}
    (hp : p.IsOf s.intake.stop lines) :
    written s lines = closed s (p.fault? <|> s.intake.flushFault?) := by
  rw [Pen.IsOf] at hp
  cases hi : s.intake with
  | absent => exact absurd hi h
  | «open» stop flushError? =>
    rw [hi, Intake.stop] at hp
    cases he : s.exit with
    | error e => simp [written, closed, he]
    | ok code =>
      cases hf : p.fault? <|> flushError? <;>
        simp only [written, closed, he, hi, Intake.accept, Intake.flushFault?, hp, hf]

theorem written_eq_ok_iff {s : Session} {lines : List String} :
    written s lines = .ok () ↔
      s.intake ≠ .absent ∧ (s.intake.accept lines).2 = none ∧ s.exit = .ok 0 := by
  rw [written]
  cases he : s.exit with
  | error e => simp
  | ok code =>
    cases hi : s.intake with
    | absent => simp
    | «open» stop flushError? =>
      cases ha : ((Intake.open stop flushError?).accept lines).2 with
      | some message => simp [ha]
      | none => by_cases hc : code = 0 <;> simp [ha, hc]

end Log

namespace Intake

/-- The pieces of lines are the bytes of the lines, with a line feed after each. -/
theorem flatten_linePieces (lines : List String) :
    (lines.flatMap linePieces).flatten = textBytes (String.join (lines.map (· ++ "\n"))) := by
  rw [textBytes_join, List.flatMap_map, List.flatMap_def, List.flatten_flatten, List.map_map,
    List.flatMap_def]
  refine congrArg List.flatten (List.map_congr_left fun l _ => ?_)
  simp [linePieces, textBytes_append]

/-- What is accepted without a fault is every line, with a line feed after it. -/
theorem accept_of_none {i : Intake} (hi : i ≠ absent) {lines : List String}
    (h : (i.accept lines).2 = none) :
    i.accept lines = (textBytes (String.join (lines.map (· ++ "\n"))), none) := by
  cases i with
  | absent => exact absurd rfl hi
  | «open» stop flushError? =>
    have hput : (put stop [] (lines.flatMap linePieces)).2 = none := by
      simp only [accept, Option.orElse_eq_orElse, Option.orElse_eq_or, Option.or_eq_none_iff] at h
      exact h.1
    refine Prod.ext ?_ h
    exact (put_of_none hput).trans (flatten_linePieces lines)

end Intake

/-! ### The parties -/

/-- What the line of a reader's step is. -/
def Runner.ReaderStep.line : Runner.ReaderStep → LogLine
  | publish l | send l => l

/-- What the writer is at. -/
inductive Writer where
  /-- Its session is not open yet. -/
  | waiting
  /-- It writes lines to its session. -/
  | writing (s : Session) (pen : Pen)
  /-- All is written, and the file is to be moved to its place. -/
  | moving
  /-- It has come to its end. -/
  | settled (result : Except LogError Unit)

/-- How much a writer has still to do, apart from the lines. -/
def Writer.rank : Writer → Nat
  | waiting => 3
  | writing _ _ => 2
  | moving => 1
  | settled _ => 0

/-- Whether nobody listens any more to what is sent to a writer. -/
def Writer.isOver : Writer → Bool
  | settled _ => true
  | _ => false

/-- A command under way. -/
structure Streaming where
  /-- The task. -/
  task : String
  /-- The directory of the task. -/
  dir : String
  /-- The command. -/
  action : PlannedAction
  /-- The session in which the command runs. -/
  session : Session
  /-- How the sessions go that the writer asks for. -/
  answer : String → Reply

/-- Whose turn it is. -/
inductive Party where
  /-- A reader; if it sends a line on, that is stamped with the time. -/
  | reader (origin : Origin) (time : String)
  /-- The writer. -/
  | writer
  /-- Who runs the command, and waits for the others. -/
  | command

namespace Streaming

/-- How far a command has come, and all that has happened. -/
structure State where
  /-- What each reader has still to do. -/
  todo : Origin → List Runner.ReaderStep
  /-- What the readers have done, in order. -/
  did : List Runner.ReaderStep := []
  /-- The lines sent on, each with the time at which that was done. -/
  sent : List (LogLine × String) := []
  /-- What the writer has not yet taken. -/
  queue : List String := []
  /-- What the writer has taken. -/
  taken : List String := []
  /-- What the writer is at. -/
  writer : Writer := .waiting
  /-- The scripts that the writer had run. -/
  scripts : List String := []
  /-- What is told. -/
  told : List Happening := []
  /-- Whether the command is told of as finished. -/
  ended : Bool := false

namespace State

variable (st : State)

/-- The lines that were sent on, as they stand in a log. -/
def texts : List String := st.sent.map fun (l, time) => l.render time

/-- Whether both readers have come to their ends. -/
def idle : Bool := (st.todo .stdout).isEmpty && (st.todo .stderr).isEmpty

/-- A bound on what may still happen: a step of a reader is worth two, since what is sent is to be
taken as well. -/
def left : Nat :=
  2 * (st.todo .stdout).length + 2 * (st.todo .stderr).length + st.queue.length + st.writer.rank +
    if st.ended then 0 else 1

theorem idle_iff : st.idle ↔ ∀ origin, st.todo origin = [] := by
  simp only [idle, Bool.and_eq_true, List.isEmpty_iff]
  exact ⟨fun h origin => by cases origin <;> simp [h], fun h => ⟨h _, h _⟩⟩

end State

variable (c : Streaming)

/-- What the reader of a stream does, in order. -/
def reads : Origin → List Runner.ReaderStep
  | .stdout => Runner.readerSteps .stdout c.session.stdout?
  | .stderr => Runner.readerSteps .stderr c.session.stderr?

/-- The script that writes the log. -/
def writeScript : String := Log.writeScript c.dir c.action.sum

/-- The script that moves the log to its place. -/
def finalizeScript : String := Log.finalizeScript c.dir c.action.sum

/-- How a line is told of. -/
def printed (l : LogLine) : Happening :=
  .commandPrinted c.task c.action.sum l.origin l.text

/-- What is told when all is over: that there is no log, if so, and how the command finished. -/
def epilogue (result : Except LogError Unit) : List Happening :=
  (match result with
    | .ok () => []
    | .error e => [.logFailed c.task c.action.sum e.message]) ++
  [Runner.finished c.task c.action ⟨c.session.exit, c.session.millis⟩]

/-- The command has been sent, and nothing has happened since. -/
def start : State := { todo := c.reads }

/-- A reader has its turn. -/
def readerTurn (origin : Origin) (time : String) (st : State) : State :=
  match st.todo origin with
  | [] => st
  | .publish l :: rest =>
    { st with
      todo := Function.update st.todo origin rest
      did := st.did ++ [.publish l]
      told := st.told ++ [c.printed l] }
  | .send l :: rest =>
    { st with
      todo := Function.update st.todo origin rest
      did := st.did ++ [.send l]
      sent := st.sent ++ [(l, time)]
      queue := if st.writer.isOver then st.queue else st.queue ++ [l.render time] }

/-- The writer has its session opened. -/
def openTurn (st : State) : State :=
  match c.answer c.writeScript with
  | .refused e =>
    { st with
      writer := .settled (.error (.transport e))
      queue := []
      scripts := st.scripts ++ [c.writeScript] }
  | .session s =>
    match s.intake with
    | .absent =>
      { st with
        writer := .settled (.error (Log.unheard s))
        queue := []
        scripts := st.scripts ++ [c.writeScript] }
    | .open _ _ => { st with writer := .writing s {}, scripts := st.scripts ++ [c.writeScript] }

/-- The writer closes its session, whose input it has written or tried to write. -/
def closeTurn (s : Session) (pen : Pen) (st : State) : State :=
  match Log.closed s (pen.fault? <|> s.intake.flushFault?) with
  | .error e => { st with writer := .settled (.error e) }
  | .ok () => { st with writer := .moving }

/-- The writer has its turn.  It waits for lines until both readers have come to their ends. -/
def writerTurn (st : State) : State :=
  match st.writer with
  | .waiting => c.openTurn st
  | .writing s pen =>
    match st.queue with
    | line :: rest =>
      { st with
        writer := .writing s (pen.write s.intake.stop line)
        queue := rest
        taken := st.taken ++ [line] }
    | [] => if st.idle then closeTurn s pen st else st
  | .moving =>
    { st with
      writer := .settled (Log.placed (c.answer c.finalizeScript))
      scripts := st.scripts ++ [c.finalizeScript] }
  | .settled _ => st

/-- Who runs the command waits for the readers and the writer. -/
def commandTurn (st : State) : State :=
  match st.writer with
  | .settled result =>
    if st.idle && !st.ended then
      { st with told := st.told ++ c.epilogue result, ended := true }
    else st
  | _ => st

/-- One of the parties has its turn. -/
def turn : Party → State → State
  | .reader origin time => c.readerTurn origin time
  | .writer => c.writerTurn
  | .command => c.commandTurn

/-- The parties have turns in some order. -/
def run (parties : List Party) (st : State) : State :=
  parties.foldl (fun st party => c.turn party st) st

@[simp] theorem run_nil (st : State) : c.run [] st = st := rfl

@[simp] theorem run_cons (party : Party) (parties : List Party) (st : State) :
    c.run (party :: parties) st = c.run parties (c.turn party st) := rfl

theorem run_append (ps qs : List Party) (st : State) :
    c.run (ps ++ qs) st = c.run qs (c.run ps st) := List.foldl_append

/-! ### Writing a log all at once -/

/-- The host of the writer, which keeps the scripts that it is sent. -/
def host : Talk.Host (StateM (List String)) where
  ask call := fun scripts => (c.answer call.shell, scripts ++ [call.shell])
  reset := fun scripts => (.ok (), scripts)

/-- What becomes of the log of all lines together, and the scripts that are run for it. -/
def logged (texts : List String) : Except LogError Unit × List String :=
  ((Log.write c.dir c.action.sum texts).runWith c.host).run []

/-- The host of the writer moves the log to its place. -/
theorem run_finalize (scripts : List String) :
    ((Log.finalize c.dir c.action.sum).runWith c.host).run scripts =
      (Log.placed (c.answer c.finalizeScript), scripts ++ [c.finalizeScript]) := by
  show ((Talk.bind (.done (c.answer c.finalizeScript).output) _ : Talk _).runWith c.host).run
    (scripts ++ [c.finalizeScript]) = _
  rw [Log.placed]
  cases (c.answer c.finalizeScript).output with
  | error e => rfl
  | ok out => cases hout : out.succeeded <;> simp [Talk.bind, hout] <;> rfl

/-- The log is moved to its place only if a session takes all lines and ends well. -/
theorem logged_eq (texts : List String) :
    c.logged texts =
      match c.answer c.writeScript with
      | .refused e => (.error (.transport e), [c.writeScript])
      | .session s =>
        match Log.written s texts with
        | .error e => (.error e, [c.writeScript])
        | .ok () =>
          (Log.placed (c.answer c.finalizeScript), [c.writeScript, c.finalizeScript]) := by
  have hrun : c.logged texts = ((match c.answer c.writeScript with
      | .refused e => .done (.error (.transport e))
      | .session s =>
        match Log.written s texts with
        | .error e => .done (.error e)
        | .ok () => Log.finalize c.dir c.action.sum : Talk _).runWith c.host).run
      [c.writeScript] := rfl
  rw [hrun]
  cases c.answer c.writeScript with
  | refused e => rfl
  | session s =>
    cases hw : Log.written s texts with
    | error e => simp only [hw]; rfl
    | ok _ => simp only [hw]; exact c.run_finalize _

theorem finalizeScript_ne : c.finalizeScript ≠ c.writeScript := by
  intro h
  have := congrArg (·.toList.head?) h
  simp [finalizeScript, writeScript, Log.finalizeScript, Log.writeScript] at this

/-- The log is moved to its place only if a session took all lines. -/
theorem written_of_mem {texts : List String} (h : c.finalizeScript ∈ (c.logged texts).2) :
    ∃ s, c.answer c.writeScript = .session s ∧ Log.written s texts = .ok () := by
  rw [logged_eq] at h
  cases ha : c.answer c.writeScript with
  | refused e =>
    rw [ha, List.mem_singleton] at h
    exact absurd h c.finalizeScript_ne
  | session s =>
    cases hw : Log.written s texts with
    | ok _ => exact ⟨s, rfl, hw⟩
    | error e =>
      simp only [ha, hw, List.mem_singleton] at h
      exact absurd h c.finalizeScript_ne

/-! ### At every moment -/

/-- Whether the writer has the session in which it writes lines. -/
def Opens (s : Session) : Prop := c.answer c.writeScript = .session s ∧ s.intake ≠ .absent

/-- What the writer has done: what is sent it has taken or has still to take, unless it had no
session to write to. -/
inductive Writes (st : State) : Prop
  | waiting (writer : st.writer = .waiting) (scripts : st.scripts = []) (taken : st.taken = [])
      (queue : st.queue = st.texts)
  | writing {s : Session} {pen : Pen} (writer : st.writer = .writing s pen) (opens : c.Opens s)
      (scripts : st.scripts = [c.writeScript]) (pen_of : pen.IsOf s.intake.stop st.taken)
      (queue : st.taken ++ st.queue = st.texts)
  | moving {s : Session} (writer : st.writer = .moving) (opens : c.Opens s)
      (scripts : st.scripts = [c.writeScript]) (idle : st.idle) (taken : st.taken = st.texts)
      (queue : st.queue = []) (well : Log.written s st.texts = .ok ())
  /-- It had no session, whatever is sent. -/
  | lost {result : Except LogError Unit} (writer : st.writer = .settled result)
      (opens : ∀ s, ¬ c.Opens s) (logged : ∀ texts, c.logged texts = (result, st.scripts))
      (queue : st.queue = [])
  | wrote {result : Except LogError Unit} {s : Session} (writer : st.writer = .settled result)
      (opens : c.Opens s) (logged : c.logged st.texts = (result, st.scripts)) (idle : st.idle)
      (taken : st.taken = st.texts) (queue : st.queue = [])

/-- What is told: lines, and after the end of all work how the command finished. -/
inductive Tells (st : State) : Prop
  | before (ended : st.ended = false)
      (told : st.told = (Runner.published st.did).map c.printed)
  | after {result : Except LogError Unit} (ended : st.ended = true) (idle : st.idle)
      (writer : st.writer = .settled result)
      (told : st.told = (Runner.published st.did).map c.printed ++ c.epilogue result)

/-- What holds at every moment. -/
structure Inv (st : State) : Prop where
  /-- What a reader has done and has still to do is all that it does. -/
  reads : ∀ origin, st.did.filter (·.line.origin = origin) ++ st.todo origin = c.reads origin
  /-- What is sent on is what the readers have sent. -/
  sent : st.sent.map Prod.fst = Runner.sent st.did
  /-- The writer. -/
  writes : c.Writes st
  /-- What is told. -/
  tells : c.Tells st

theorem origin_of_mem_reads {origin : Origin} {step : Runner.ReaderStep}
    (h : step ∈ c.reads origin) : step.line.origin = origin := by
  have hreads : ∀ s?, step ∈ Runner.readerSteps origin s? → step.line.origin = origin := by
    intro s? hs
    obtain ⟨l, hl, hstep⟩ := List.mem_flatMap.1 hs
    obtain ⟨text, -, rfl⟩ := List.mem_map.1 hl
    rcases List.mem_pair.1 hstep with rfl | rfl <;> rfl
  cases origin <;> exact hreads _ h

theorem inv_start : c.Inv c.start where
  reads _ := rfl
  sent := rfl
  writes := .waiting rfl rfl rfl rfl
  tells := .before rfl rfl

variable {c} {st : State}

/-- A reader that does the next of its steps keeps to its order. -/
theorem Inv.reads_update (h : c.Inv st) {origin : Origin} {step : Runner.ReaderStep}
    {rest : List Runner.ReaderStep} (hd : st.todo origin = step :: rest) (origin' : Origin) :
    (st.did ++ [step]).filter (·.line.origin = origin') ++
      Function.update st.todo origin rest origin' = c.reads origin' := by
  have hstep : step.line.origin = origin := by
    refine c.origin_of_mem_reads ?_
    rw [← h.reads, hd]
    simp
  rw [← h.reads origin', List.filter_append]
  by_cases ho : origin' = origin
  · subst ho
    simp [hstep, hd]
  · have hne : step.line.origin ≠ origin' := fun he => ho (he.symm.trans hstep)
    simp [hne, Function.update_of_ne ho]

/-- While a reader has something to do the readers are not both at their ends. -/
theorem not_idle {origin : Origin} {step : Runner.ReaderStep} {rest : List Runner.ReaderStep}
    (hd : st.todo origin = step :: rest) : ¬ st.idle := by
  intro hi
  rw [st.idle_iff.1 hi origin] at hd
  cases hd

theorem Inv.readerTurn (h : c.Inv st) (origin : Origin) (time : String) :
    c.Inv (c.readerTurn origin time st) := by
  rw [Streaming.readerTurn]
  cases hd : st.todo origin with
  | nil => exact h
  | cons step rest =>
    have hbusy := not_idle hd
    cases step with
    | publish l =>
      refine ⟨h.reads_update hd, ?_, ?_, ?_⟩
      · simpa [Runner.sent] using h.sent
      · cases h.writes with
        | waiting hw hs ht hq => exact .waiting hw hs ht hq
        | writing hw ho hs hp hq => exact .writing hw ho hs hp hq
        | moving _ _ _ hi => exact absurd hi hbusy
        | lost hw ho hl hq => exact .lost hw ho hl hq
        | wrote _ _ _ hi => exact absurd hi hbusy
      · cases h.tells with
        | before he ht => exact .before he (by simp [ht, Runner.published])
        | after _ hi => exact absurd hi hbusy
    | send l =>
      refine ⟨h.reads_update hd, ?_, ?_, ?_⟩
      · simp [Runner.sent, h.sent]
      · cases h.writes with
        | waiting hw hs ht hq =>
          exact .waiting hw hs ht (by simp [hw, Writer.isOver, hq, State.texts])
        | writing hw ho hs hp hq =>
          refine .writing hw ho hs hp ?_
          simp [hw, Writer.isOver, ← List.append_assoc, hq, State.texts]
        | moving _ _ _ hi => exact absurd hi hbusy
        | lost hw ho hl hq => exact .lost hw ho hl (by simp [hw, Writer.isOver, hq])
        | wrote _ _ _ hi => exact absurd hi hbusy
      · cases h.tells with
        | before he ht => exact .before he (by simp [ht, Runner.published])
        | after _ hi => exact absurd hi hbusy

theorem Inv.commandTurn (h : c.Inv st) : c.Inv (c.commandTurn st) := by
  rw [Streaming.commandTurn]
  cases hw : st.writer with
  | settled result =>
    by_cases hi : st.idle && !st.ended
    · simp only [hi, if_true]
      rw [Bool.and_eq_true, Bool.not_eq_true'] at hi
      refine ⟨h.reads, h.sent, ?_, ?_⟩
      · cases h.writes with
        | lost hw' ho hl hq =>
          obtain rfl := Writer.settled.inj (hw.symm.trans hw')
          exact .lost rfl ho hl hq
        | wrote hw' ho hl hi ht hq =>
          obtain rfl := Writer.settled.inj (hw.symm.trans hw')
          exact .wrote rfl ho hl hi ht hq
        | _ hw' => rw [hw] at hw'; cases hw'
      · cases h.tells with
        | before he ht => exact .after rfl hi.1 rfl (by simp [ht])
        | after he => rw [hi.2] at he; cases he
    · simp only [hi]
      exact h
  | _ => exact h

theorem Writes.openTurn (h : c.Writes st) (hw : st.writer = .waiting) :
    c.Writes (c.openTurn st) := by
  cases h with
  | waiting _ hs ht hq =>
    rw [Streaming.openTurn]
    cases ha : c.answer c.writeScript with
    | refused e =>
      refine .lost rfl ?_ ?_ rfl
      · rintro s ⟨hs, -⟩
        rw [ha] at hs
        cases hs
      · intro texts
        simp [c.logged_eq, ha, hs]
    | session s =>
      cases hi : s.intake with
      | absent =>
        simp only [hi]
        refine .lost rfl ?_ ?_ rfl
        · rintro s' ⟨hs, hne⟩
          obtain rfl := Reply.session.inj (ha.symm.trans hs)
          exact hne hi
        · intro texts
          simp [c.logged_eq, ha, hs, Log.written_of_absent hi]
      | «open» stop flushError? =>
        simp only [hi]
        refine .writing rfl ⟨ha, by simp [hi]⟩ (by simp [hs]) ?_ (by simp [ht, hq]; rfl)
        rw [ht]
        rfl
  | _ hw' => rw [hw] at hw'; cases hw'

theorem Writes.closeTurn {s : Session} {pen : Pen} (ho : c.Opens s)
    (hs : st.scripts = [c.writeScript]) (hp : pen.IsOf s.intake.stop st.taken) (hi : st.idle)
    (hqueue : st.queue = []) (ht : st.taken = st.texts) :
    c.Writes (closeTurn s pen st) := by
  -- all lines are taken, so the session comes to what it comes to with all lines at once
  have hclosed : Log.closed s (pen.fault? <|> s.intake.flushFault?) = Log.written s st.texts := by
    rw [← ht]
    exact (Log.written_of_isOf ho.2 hp).symm
  rw [Streaming.closeTurn, hclosed]
  cases hw : Log.written s st.texts with
  | error e =>
    refine .wrote rfl ho ?_ hi ht hqueue
    show c.logged st.texts = _
    simp [c.logged_eq, ho.1, hw, hs]
  | ok _ => exact .moving rfl ho hs hi ht hqueue hw

theorem Writes.writerTurn (h : c.Writes st) : c.Writes (c.writerTurn st) := by
  rw [Streaming.writerTurn]
  cases hwr : st.writer with
  | waiting => exact h.openTurn hwr
  | settled result => exact h
  | moving =>
    cases h with
    | moving _ ho hs hi ht hq hw =>
      refine .wrote rfl ho ?_ hi ht hq
      show c.logged st.texts = _
      simp [c.logged_eq, ho.1, hw, hs]
    | _ hw => rw [hwr] at hw; cases hw
  | writing s pen =>
    cases h with
    | writing hw ho hs hp hq =>
      obtain ⟨rfl, rfl⟩ := Writer.writing.inj (hwr.symm.trans hw)
      cases hqueue : st.queue with
      | cons line rest =>
        rw [hqueue] at hq
        exact .writing rfl ho hs (hp.write line) (by simpa [State.texts] using hq)
      | nil =>
        by_cases hi : st.idle
        · simp only [hi, if_true]
          exact .closeTurn ho hs hp hi hqueue (by simpa [hqueue] using hq)
        · simp only [hi]
          exact .writing hw ho hs hp hq
    | _ hw => rw [hwr] at hw; cases hw

/-- The writer has no part in what the readers do and what is told. -/
theorem writerTurn_frame (c : Streaming) (st : State) : ∃ writer queue taken scripts,
    c.writerTurn st = { st with writer, queue, taken, scripts } := by
  rw [Streaming.writerTurn]
  cases hw : st.writer with
  | waiting =>
    simp only [openTurn]
    cases c.answer c.writeScript with
    | refused e => exact ⟨_, _, _, _, rfl⟩
    | session s => cases hi : s.intake <;> simp only [hi] <;> exact ⟨_, _, _, _, rfl⟩
  | writing s pen =>
    cases hq : st.queue with
    | cons line rest => exact ⟨_, _, _, _, rfl⟩
    | nil =>
      by_cases hi : st.idle
      · simp only [hi, if_true, closeTurn]
        cases Log.closed s (pen.fault? <|> s.intake.flushFault?) <;> exact ⟨_, _, _, _, rfl⟩
      · simp only [hi]
        exact ⟨_, _, _, _, rfl⟩
  | moving => exact ⟨_, _, _, _, rfl⟩
  | settled result => exact ⟨_, _, _, _, rfl⟩

theorem Inv.writerTurn (h : c.Inv st) : c.Inv (c.writerTurn st) := by
  have hwrites := h.writes.writerTurn
  cases h.tells with
  | after _ _ hw =>
    rw [Streaming.writerTurn, hw]
    exact h
  | before he ht =>
    obtain ⟨writer, queue, taken, scripts, heq⟩ := c.writerTurn_frame st
    rw [heq] at hwrites ⊢
    exact ⟨h.reads, h.sent, hwrites, .before he ht⟩

theorem Inv.turn (h : c.Inv st) (party : Party) : c.Inv (c.turn party st) := by
  cases party with
  | reader origin time => exact h.readerTurn origin time
  | writer => exact h.writerTurn
  | command => exact h.commandTurn

theorem Inv.run (h : c.Inv st) (parties : List Party) : c.Inv (c.run parties st) := by
  induction parties generalizing st with
  | nil => exact h
  | cons party parties ih => exact ih (h.turn party)

/-! ### Nobody waits for ever -/

/-- A reader waits for nobody. -/
theorem left_readerTurn (c : Streaming) (st : State) (origin : Origin) (time : String) :
    (c.readerTurn origin time st).left < st.left ∨
      c.readerTurn origin time st = st ∧ st.todo origin = [] := by
  rw [Streaming.readerTurn]
  cases hd : st.todo origin with
  | nil => exact .inr ⟨rfl, rfl⟩
  | cons step rest =>
    left
    cases step with
    | publish l => cases origin <;> simp [State.left, hd]
    | send l =>
      cases hw : st.writer.isOver <;> cases origin <;> simp [State.left, hd] <;> omega

/-- The writer waits for nobody but the readers. -/
theorem left_writerTurn (c : Streaming) (st : State) :
    (c.writerTurn st).left < st.left ∨
      c.writerTurn st = st ∧ (st.writer.isOver ∨ ¬ st.idle) := by
  rw [Streaming.writerTurn]
  cases hw : st.writer with
  | waiting =>
    left
    simp only [openTurn]
    cases c.answer c.writeScript with
    | refused e => simp [State.left, hw, Writer.rank]; omega
    | session s =>
      cases hi : s.intake with
      | absent => simp [State.left, hw, Writer.rank, hi]; omega
      | «open» stop flushError? => simp [State.left, hw, Writer.rank, hi]
  | writing s pen =>
    cases hq : st.queue with
    | cons line rest =>
      left
      simp [State.left, hw, Writer.rank, hq]
    | nil =>
      by_cases hi : st.idle
      · left
        simp only [hi, if_true, closeTurn]
        cases Log.closed s (pen.fault? <|> s.intake.flushFault?) <;>
          simp [State.left, hw, Writer.rank, hq]
      · simp only [hi]
        exact .inr ⟨rfl, .inr (by simp)⟩
  | moving =>
    left
    simp [State.left, hw, Writer.rank]
  | settled result => exact .inr ⟨rfl, .inl rfl⟩

/-- Who runs the command waits for nobody but the readers and the writer. -/
theorem left_commandTurn (c : Streaming) (st : State) :
    (c.commandTurn st).left < st.left ∨
      c.commandTurn st = st ∧ (¬ st.writer.isOver ∨ ¬ st.idle ∨ st.ended) := by
  rw [Streaming.commandTurn]
  cases hw : st.writer with
  | settled result =>
    by_cases hi : st.idle && !st.ended
    · left
      simp only [hi, if_true]
      rw [Bool.and_eq_true, Bool.not_eq_true'] at hi
      simp [State.left, hw, Writer.rank, hi.2]
    · simp only [hi]
      refine .inr ⟨rfl, .inr ?_⟩
      simpa [imp_iff_not_or] using hi
  | _ => exact .inr ⟨rfl, .inl (by simp [Writer.isOver])⟩

/-- A turn in which something happens leaves less to happen. -/
theorem left_turn (c : Streaming) (st : State) (party : Party) :
    (c.turn party st).left < st.left ∨ c.turn party st = st := by
  cases party with
  | reader origin time => exact (c.left_readerTurn st origin time).imp_right And.left
  | writer => exact (c.left_writerTurn st).imp_right And.left
  | command => exact (c.left_commandTurn st).imp_right And.left

/-- Until all is over there is somebody who does not wait. -/
theorem exists_turn (c : Streaming) {st : State} (he : st.ended = false) :
    ∃ party, (c.turn party st).left < st.left := by
  by_cases hi : st.idle
  · rcases c.left_writerTurn st with hlt | ⟨-, hover | hidle⟩
    · exact ⟨.writer, hlt⟩
    · rcases c.left_commandTurn st with hlt | ⟨-, hnot | hidle | hended⟩
      · exact ⟨.command, hlt⟩
      · exact absurd hover hnot
      · exact absurd hi hidle
      · rw [he] at hended
        cases hended
    · exact absurd hi hidle
  · rw [st.idle_iff, not_forall] at hi
    obtain ⟨origin, hne⟩ := hi
    rcases c.left_readerTurn st origin "" with hlt | ⟨-, hnil⟩
    · exact ⟨.reader origin "", hlt⟩
    · exact absurd hnil hne

/-- Whatever has happened, all can come to its end. -/
theorem exists_ended (c : Streaming) (st : State) : ∃ parties, (c.run parties st).ended := by
  induction hn : st.left using Nat.strong_induction_on generalizing st with
  | _ n ih =>
    cases he : st.ended with
    | true => exact ⟨[], he⟩
    | false =>
      obtain ⟨party, hlt⟩ := c.exists_turn he
      obtain ⟨parties, hended⟩ := ih _ (hn ▸ hlt) _ rfl
      exact ⟨party :: parties, hended⟩

end Streaming

/-! ### The lines of each stream -/

namespace Runner

variable {f : ReaderStep → Option LogLine}

/-- What is read off the steps of each stream, if it is their lines. -/
theorem filter_filterMap (hf : ∀ step l, f step = some l → l = step.line) (origin : Origin)
    (steps : List ReaderStep) :
    (steps.filterMap f).filter (·.origin = origin) =
      (steps.filter (·.line.origin = origin)).filterMap f := by
  induction steps with
  | nil => rfl
  | cons step steps ih =>
    cases hstep : f step with
    | none => by_cases ho : step.line.origin = origin <;> simp [hstep, ho, ih]
    | some l =>
      obtain rfl := hf step l hstep
      by_cases ho : step.line.origin = origin <;> simp [hstep, ho, ih]

theorem published_filter (origin : Origin) (steps : List ReaderStep) :
    (published steps).filter (·.origin = origin) =
      published (steps.filter (·.line.origin = origin)) :=
  filter_filterMap (by rintro (l | l) _ ⟨⟩; rfl) origin steps

theorem sent_filter (origin : Origin) (steps : List ReaderStep) :
    (sent steps).filter (·.origin = origin) = sent (steps.filter (·.line.origin = origin)) :=
  filter_filterMap (by rintro (l | l) _ ⟨⟩; rfl) origin steps

/-- A reader tells of every line, in order. -/
theorem published_readerSteps (origin : Origin) (s? : Option Stream) :
    published (readerSteps origin s?) =
      (s?.getD []).lines.map fun text => ⟨origin, text⟩ := by
  rw [readerSteps]
  induction (s?.getD []).lines with
  | nil => rfl
  | cons text texts ih => exact congrArg (_ :: ·) ih

/-- A reader sends on every line, in order. -/
theorem sent_readerSteps (origin : Origin) (s? : Option Stream) :
    sent (readerSteps origin s?) = (s?.getD []).lines.map fun text => ⟨origin, text⟩ := by
  rw [readerSteps]
  induction (s?.getD []).lines with
  | nil => rfl
  | cons text texts ih => exact congrArg (_ :: ·) ih

end Runner

/-- Steps of two readers are those of each, in the order in which they were done. -/
theorem interleave_filter {α : Type} (origin : α → Origin) (xs : List α) :
    interleave (xs.map origin) (xs.filter (origin · = .stdout)) (xs.filter (origin · = .stderr)) =
      xs := by
  induction xs with
  | nil => rfl
  | cons x xs ih => cases ho : origin x <;> simp [ho, interleave, ih]

namespace Streaming

variable {c : Streaming} {st : State}

/-- The lines of a stream of the command. -/
def lines (c : Streaming) (origin : Origin) : List LogLine :=
  (c.session.linesOf origin).map fun text => ⟨origin, text⟩

theorem published_reads (c : Streaming) (origin : Origin) :
    Runner.published (c.reads origin) = c.lines origin := by
  cases origin <;> exact Runner.published_readerSteps _ _

theorem sent_reads (c : Streaming) (origin : Origin) :
    Runner.sent (c.reads origin) = c.lines origin := by
  cases origin <;> exact Runner.sent_readerSteps _ _

/-- When the readers have come to their ends their steps are those of readers that have turns in
some order. -/
theorem Inv.exists_turns (h : c.Inv st) (hi : st.idle) :
    ∃ turns, Runner.allReaderSteps { c.session with turns } = st.did := by
  have hall : ∀ origin, st.did.filter (·.line.origin = origin) = c.reads origin := by
    intro origin
    rw [← h.reads origin, st.idle_iff.1 hi origin, List.append_nil]
  refine ⟨st.did.map (·.line.origin), ?_⟩
  exact (congrArg₂ (interleave _) (hall .stdout).symm (hall .stderr).symm).trans
    (interleave_filter (·.line.origin) st.did)

/-- What is told and what is sent on are lines of each stream in order, as far as its reader has
come. -/
theorem Inv.inOrder (h : c.Inv st) (origin : Origin) :
    (Runner.published st.did).filter (·.origin = origin) <+: c.lines origin ∧
      (Runner.sent st.did).filter (·.origin = origin) <+: c.lines origin := by
  have hpre : st.did.filter (·.line.origin = origin) <+: c.reads origin := ⟨_, h.reads origin⟩
  constructor
  · rw [Runner.published_filter, ← c.published_reads]
    exact hpre.filterMap _
  · rw [Runner.sent_filter, ← c.sent_reads]
    exact hpre.filterMap _

/-- When the readers have come to their ends that is every line. -/
theorem Inv.prints (h : c.Inv st) (hi : st.idle) :
    (Reply.session c.session).Prints (Runner.published st.did) ∧
      (Reply.session c.session).Prints (Runner.sent st.did) := by
  have hall : ∀ origin, st.did.filter (·.line.origin = origin) = c.reads origin := by
    intro origin
    rw [← h.reads origin, st.idle_iff.1 hi origin, List.append_nil]
  constructor
  · intro origin
    rw [Runner.published_filter, hall, published_reads]
    rfl
  · intro origin
    rw [Runner.sent_filter, hall, sent_reads]
    rfl

/-! ### What has happened -/

/-- What has happened when the parties have had turns in some order. -/
def after (c : Streaming) (parties : List Party) : State := c.run parties c.start

/-- Whether the session that writes the log has taken every line of both streams, in the order in
which they were sent and each with a line feed, and has ended well. -/
def Accepted (c : Streaming) (st : State) : Prop :=
  ∃ s, c.answer c.writeScript = .session s ∧ s.exit = .ok 0 ∧ s.intake ≠ .absent ∧
    (Reply.session c.session).Prints (st.sent.map Prod.fst) ∧ st.taken = st.texts ∧
    s.intake.accept st.texts = (textBytes (String.join (st.texts.map (· ++ "\n"))), none)

/-- What has happened to the output of a command that is told of as finished. -/
structure Settled (c : Streaming) (st : State) : Prop where
  /-- Every line was sent on once, those of each stream in order. -/
  sent : (Reply.session c.session).Prints (st.sent.map Prod.fst)
  /-- Every line was told once, those of each stream in order, before anything was told of the log
  or of the end; and the log has come to what it comes to with all lines at once. -/
  told : ∃ lines result, (Reply.session c.session).Prints lines ∧
    st.told = lines.map c.printed ++ c.epilogue result ∧ c.logged st.texts = (result, st.scripts)
  /-- The writer took all that was sent, if it had a session to write to. -/
  taken : ∀ s, c.Opens s → st.taken = st.texts
  /-- If a line was not written, the log was not moved to its place, and that is told. -/
  fault : ∀ s message, c.Opens s → (s.intake.accept st.texts).2 = some message →
    c.finalizeScript ∉ st.scripts ∧
      ∃ e : LogError, .logFailed c.task c.action.sum e.message ∈ st.told

/-- Whether all this can happen to a command with readers that have turns of some order. -/
def Plays (c : Streaming) (st : State) (r : Runner) : Prop :=
  ∃ turns xs result,
    (r.stream c.task c.dir c.action.sum c.action.action.script).Yields
      (.asked ⟨r.wrap c.action.action.script, []⟩ (.session { c.session with turns }) :: xs)
      ⟨c.session.exit, c.session.millis⟩ ∧
    .logged ⟨c.dir, c.action.sum, st.sent.map Prod.fst⟩ result ∈ xs ∧
    c.logged st.texts = (result, st.scripts) ∧
    st.told = events xs ++
      [Runner.finished c.task c.action ⟨c.session.exit, c.session.millis⟩]

theorem Inv.accepted (h : c.Inv st) (hm : c.finalizeScript ∈ st.scripts) : c.Accepted st := by
  cases h.writes with
  | waiting _ hs => simp [hs] at hm
  | writing _ _ hs => simp [hs, c.finalizeScript_ne] at hm
  | moving _ _ hs => simp [hs, c.finalizeScript_ne] at hm
  | lost _ ho hl =>
    have hnone : c.finalizeScript ∈ (c.logged []).2 := by rwa [hl]
    obtain ⟨s, ha, hw⟩ := c.written_of_mem hnone
    exact absurd ⟨ha, (Log.written_eq_ok_iff.1 hw).1⟩ (ho s)
  | wrote _ _ hl hi ht =>
    have hall : c.finalizeScript ∈ (c.logged st.texts).2 := by rwa [hl]
    obtain ⟨s, ha, hw⟩ := c.written_of_mem hall
    obtain ⟨hne, haccept, hexit⟩ := Log.written_eq_ok_iff.1 hw
    exact ⟨s, ha, hexit, hne, h.sent ▸ (h.prints hi).2, ht, Intake.accept_of_none hne haccept⟩

/-- When all is over the log has come to what it comes to with all lines at once. -/
theorem Inv.exists_logged (h : c.Inv st) (he : st.ended) : ∃ result, st.idle ∧
    st.told = (Runner.published st.did).map c.printed ++ c.epilogue result ∧
      c.logged st.texts = (result, st.scripts) ∧ ∀ s, c.Opens s → st.taken = st.texts := by
  cases h.tells with
  | before hnot =>
    rw [hnot] at he
    cases he
  | @after result _ hi hw ht =>
    refine ⟨result, hi, ht, ?_⟩
    cases h.writes with
    | lost hw' ho hl =>
      obtain rfl := Writer.settled.inj (hw.symm.trans hw')
      exact ⟨hl _, fun s hs => absurd hs (ho s)⟩
    | wrote hw' _ hl _ htaken =>
      obtain rfl := Writer.settled.inj (hw.symm.trans hw')
      exact ⟨hl, fun _ _ => htaken⟩
    | _ hw' => rw [hw] at hw'; cases hw'

theorem Inv.settled (h : c.Inv st) (he : st.ended) : c.Settled st := by
  obtain ⟨result, hi, ht, hl, htaken⟩ := h.exists_logged he
  refine ⟨h.sent ▸ (h.prints hi).2, ⟨_, result, (h.prints hi).1, ht, hl⟩, htaken, ?_⟩
  rintro s message ⟨ha, hne⟩ hfault
  -- the session has not taken all lines, so that there is no log
  cases hw : Log.written s st.texts with
  | ok _ =>
    rw [(Log.written_eq_ok_iff.1 hw).2.1] at hfault
    cases hfault
  | error e =>
    rw [c.logged_eq, ha] at hl
    simp only [hw, Prod.mk.injEq] at hl
    obtain ⟨rfl, hscripts⟩ := hl
    constructor
    · simp [← hscripts, c.finalizeScript_ne]
    · exact ⟨e, by simp [ht, epilogue]⟩

/-- What is reported of a command whose readers have turns of some order. -/
theorem Inv.plays (h : c.Inv st) (he : st.ended) (r : Runner) : c.Plays st r := by
  obtain ⟨result, hi, ht, hl, -⟩ := h.exists_logged he
  obtain ⟨turns, hturns⟩ := h.exists_turns hi
  have hstream : r.stream c.task c.dir c.action.sum c.action.action.script =
      .ask ⟨r.wrap c.action.action.script, []⟩ (Runner.account c.task c.dir c.action) := rfl
  obtain ⟨xs, hreported, hlogged, hevents⟩ : ∃ xs,
      Reported c.task c.dir c.action.sum (.session { c.session with turns }) xs ∧
        .logged ⟨c.dir, c.action.sum, st.sent.map Prod.fst⟩ result ∈ xs ∧
        st.told = events xs ++
          [Runner.finished c.task c.action ⟨c.session.exit, c.session.millis⟩] := by
    rw [ht, h.sent, ← hturns]
    cases result with
    | ok _ =>
      refine ⟨_, .logged _, by simp, ?_⟩
      simp [events_map_told, epilogue, printed]
    | error e =>
      refine ⟨_, .unlogged _ e, by simp, ?_⟩
      simp [events_map_told, epilogue, printed]
  exact ⟨turns, xs, result, hstream ▸ .next (.ask _ _ _) (yields_account.2 ⟨hreported, rfl⟩),
    hlogged, hl, hevents⟩

/-- Whatever turns the readers and the writer have: the lines of each stream are told and sent on in
their order, each once, and before the end of the command is told; the log is moved to its place
only if it is complete; and all comes to its end as for a command whose readers have turns of some
order. -/
theorem lines_kept (c : Streaming) (parties : List Party) :
    (∀ origin, ((c.after parties).sent.map Prod.fst).filter (·.origin = origin) <+:
      c.lines origin) ∧
    ((c.after parties).ended = false → ∃ ls : List LogLine,
      (c.after parties).told = ls.map c.printed ∧
        ∀ origin, ls.filter (·.origin = origin) <+: c.lines origin) ∧
    (c.finalizeScript ∈ (c.after parties).scripts → c.Accepted (c.after parties)) ∧
    ((c.after parties).ended → c.Settled (c.after parties) ∧ ∀ r, c.Plays (c.after parties) r) ∧
    (∃ more, (c.after (parties ++ more)).ended) ∧
    ∀ party, c.turn party (c.after parties) = c.after parties ∨
      (c.turn party (c.after parties)).left < (c.after parties).left := by
  have h : c.Inv (c.after parties) := c.inv_start.run parties
  refine ⟨fun origin => h.sent ▸ (h.inOrder origin).2, fun he => ?_, h.accepted,
    fun he => ⟨h.settled he, h.plays he⟩, ?_, fun party => (c.left_turn _ party).symm⟩
  · cases h.tells with
    | before _ ht => exact ⟨_, ht, fun origin => (h.inOrder origin).1⟩
    | after hended =>
      rw [he] at hended
      cases hended
  · obtain ⟨more, hended⟩ := c.exists_ended (c.after parties)
    exact ⟨more, by rw [after, run_append]; exact hended⟩

/-- What makes the writing of a log fail in the middle of its second line. -/
def tornLog : Stop := .afterBytes 20 "full"

/-- A command that prints one line to each stream, with a log that breaks off in the second line if
`torn`. -/
def twoLines (torn : Bool) : Streaming where
  task := "web"
  dir := "/cache/web"
  action := ⟨0, "a1", ⟨"say", "say"⟩, .execute⟩
  session := { stdout? := some [.bytes 104 [105, 10]], stderr? := some [.bytes 104 [111, 10]] }
  answer _ := .session { intake := if torn then .open tornLog else .open }

/-- The second line is told of first and sent on last. -/
def crossed : List Party :=
  [.writer, .reader .stderr "", .reader .stdout "", .reader .stdout "1", .writer,
    .reader .stderr "2", .writer, .writer, .writer, .command]

/-- A log that takes both lines is moved to its place.  One that breaks off in the second is not,
though that line is taken from the queue all the same. -/
theorem crossed_kept :
    (twoLines false).Accepted ((twoLines false).after crossed) ∧
      ((twoLines true).after crossed).taken = ["1 [stdout] hi", "2 [stderr] ho"] ∧
      (twoLines true).finalizeScript ∉ ((twoLines true).after crossed).scripts := by
  refine ⟨(lines_kept _ crossed).2.2.1 (by decide +kernel), ?_⟩
  have h := ((lines_kept (twoLines true) crossed).2.2.2.1 (by decide +kernel)).1
  have opens : (twoLines true).Opens { intake := .open tornLog } := ⟨rfl, nofun⟩
  exact ⟨(h.taken _ opens).trans (by decide +kernel),
    (h.fault _ "full" opens (by decide +kernel)).1⟩

end Streaming

end Provisioning
