import BeltHeap.Proofs.Targets

/-
  What is asked of a process, one command after the other.  Its
  memory is used only while it is stopped, a process that has
  terminated is asked nothing more, and its epoch counts how
  often it was stopped while it ran.  What the channel replies
  decides what a command comes to: it fails, and changes
  nothing, if the channel refuses or stops short.

  Main declarations:
    * `LiveProcess.Command`, `LiveProcess.exchanges`
    * `Call`, `Reply`, `Call.Earns`
    * `LiveProcess.Outcome`, `LiveProcess.outcome_exchange`
    * `Recorder`, `LiveProcess.exchanges_unrecorded`
    * `LiveProcess.Exchange.Orderly`
    * `LiveProcess.commands_keep_order`
-/

------------------------------------------------------------
-- Commands
------------------------------------------------------------

namespace BeltHeap

namespace LiveProcess

/-
  What a caller may ask of a process.  A read comes with the
  buffer that it is to fill.
-/
inductive Command where
| read (a : Nat) (buffer : Destination) : Command
| write (a : Nat) (bs : List UInt8) : Command
| suspend : Command
| resume : Command
| kill : Command
| threads : Command
deriving DecidableEq, Repr

/- The buffer that a command comes with, if any. -/
def Command.buffer : Command → Destination
| .read _ buffer => buffer
| _ => .zeros 0

variable {σ α : Type} [ProcessChannel σ]

/- Do what is asked, and leave out what it answers. -/
def Command.perform : Command → ObserverM (Caller σ) Unit
| .read a _ => LiveProcess.read a
| .write a bs => onProcess (LiveProcess.write a bs)
| .suspend => onProcess LiveProcess.suspend
| .resume => onProcess LiveProcess.resume
| .kill => onProcess LiveProcess.kill
| .threads => do
    let _ ← onProcess LiveProcess.threads
    pure ()

/- A command with what it came to. -/
structure Exchange (σ : Type) where
  command : Command
  before : Caller σ
  result : Except Interruption Unit
  after : Caller σ

/- Carry out a command.  The log goes on after it. -/
def exchange
    (command : Command)
    (s : Logged (LiveProcess σ)) : Exchange σ × Log :=
  let before := ⟨s.state, command.buffer⟩
  let r := command.perform ⟨before, s.log⟩
  (⟨command, before, r.1, r.2.state⟩, r.2.log)

/-
  Commands one after the other, whether or not those before them
  were carried out.
-/
def exchanges :
    List Command → Logged (LiveProcess σ) → List (Exchange σ)
| [], _ => []
| command :: rest, s =>
    let r := exchange command s
    r.1 :: exchanges rest ⟨r.1.after.process, r.2⟩

end LiveProcess

------------------------------------------------------------
-- Calls and Replies
------------------------------------------------------------

/- What reaches a channel. -/
inductive Call where
| read (a count : Nat) : Call
| write (a : Nat) (bs : List UInt8) : Call
| suspend : Call
| resume : Call
| kill : Call
| threads : Call
deriving DecidableEq, Repr

/-
  What a channel replies.  It refuses, or gives the bytes that
  it read, or tells how many bytes it took.
-/
inductive Reply where
| refused (text : String) : Reply
| gave (bs : List UInt8) : Reply
| took (count : Nat) : Reply
deriving DecidableEq, Repr

namespace Reply

/- The reply to a granted call that is not about memory. -/
def done : Reply := .took 0

/- The bytes that come with a reply. -/
def bytes : Reply → List UInt8
| .gave bs => bs
| _ => []

/- How many bytes were transferred, unless the call was refused. -/
def count? : Reply → Option Nat
| .refused _ => none
| .gave bs => some bs.length
| .took count => some count

/- The reply that an answer of a channel stands for. -/
def ofAnswer
    {α : Type}
    (granted : α → Reply) : Except String α → Reply
| .ok a => granted a
| .error text => .refused text

end Reply

namespace Call

/- Is the memory of the process asked for? -/
def IsMemory : Call → Prop
| .read .. => True
| .write .. => True
| _ => False

/- Where the bytes of a call begin. -/
def place : Call → Nat
| .read a _ => a
| .write a _ => a
| _ => 0

/- How many bytes a call is to transfer. -/
def length : Call → Nat
| .read _ count => count
| .write _ bs => bs.length
| _ => 0

/-
  What a command comes to by the reply to its call.  A refusal
  is an error, and so is a transfer that stops short: the bytes
  that are missing are not mapped, and a fault if there are no
  such addresses.
-/
inductive Earns
    (call : Call) : Reply → Except Interruption Unit → Prop where
| refused
    {text : String} :
    Earns call (.refused text) (.error (.error (.io text)))
| short
    {reply : Reply}
    {count : Nat}
    (hCount : reply.count? = some count)
    (hShort : count < call.length)
    (hPlace : call.place + count < Word.limit) :
    Earns call reply
      (.error
        (.error
          (.unmapped (call.place + count) (call.length - count))))
| beyond
    {reply : Reply}
    {count : Nat}
    (hCount : reply.count? = some count)
    (hShort : count < call.length)
    (hPlace : Word.limit ≤ call.place + count) :
    Earns call reply (.error (.fault .addOverflow))
| whole
    {reply : Reply}
    {count : Nat}
    (hCount : reply.count? = some count)
    (hWhole : call.length ≤ count) :
    Earns call reply (.ok ())

variable {σ : Type} [ProcessChannel σ]

/- Ask a channel, and take down its reply. -/
def send : Call → StateM σ Reply
| .read a count => fun c =>
    let answer := ProcessChannel.read a count c
    (.ofAnswer .gave answer.1, answer.2)
| .write a bs => fun c =>
    let answer := ProcessChannel.write a bs c
    (.ofAnswer .took answer.1, answer.2)
| .suspend => plainly ProcessChannel.suspend
| .resume => plainly ProcessChannel.resume
| .kill => plainly ProcessChannel.kill
| .threads => plainly ProcessChannel.threads
where
  plainly {α : Type} (question : StateM σ (Except String α)) :
      StateM σ Reply := fun c =>
    let answer := question c
    (.ofAnswer (fun _ => .done) answer.1, answer.2)

end Call

------------------------------------------------------------
-- What Commands Come To
------------------------------------------------------------

namespace LiveProcess

namespace Command

/- The call that asks the channel for what a command needs. -/
def call : Command → Call
| .read a buffer => .read a buffer.size
| .write a bs => .write a bs
| .suspend => .suspend
| .resume => .resume
| .kill => .kill
| .threads => .threads

/- The state that a command brings a process into, if any. -/
def goal : Command → Option ProcessState
| .suspend => some .stopped
| .resume => some .running
| .kill => some .terminated
| _ => none

/- How many epochs begin where a command is carried out. -/
def epochs : Command → Nat
| .suspend => 1
| _ => 0

/- The buffer after a command that came to some bytes. -/
def fill
    (bs : List UInt8)
    (buffer : Destination) : Command → Destination
| .read .. => .bytes (bs.take buffer.size)
| _ => buffer

/- Is the channel asked, when the process is in a state? -/
def Asks : Command → ProcessState → Prop
| .read .., state => state = .stopped
| .write .., state => state = .stopped
| .suspend, state => state ≠ .stopped ∧ state ≠ .terminated
| .resume, state => state ≠ .running ∧ state ≠ .terminated
| .kill, state => state ≠ .terminated
| .threads, state => state ≠ .terminated

variable {σ : Type} [ProcessChannel σ]

/- The reply of a channel to the call of a command. -/
def reply
    (command : Command)
    (p : LiveProcess σ) : Reply :=
  (command.call.send p.channel).1

/- A caller whose channel was asked, and nothing else. -/
def asked
    (command : Command)
    (c : Caller σ) : Caller σ :=
  { c with
    process :=
      { c.process with
        channel := (command.call.send c.process.channel).2 } }

omit [ProcessChannel σ] in
/- A caller after a command that came to some bytes. -/
def noted
    (command : Command)
    (bs : List UInt8)
    (c : Caller σ) : Caller σ where
  process :=
    { c.process with
      state := command.goal.getD c.process.state
      epoch := c.process.epoch + command.epochs }
  buffer := command.fill bs c.buffer

end Command

variable {σ α : Type} [ProcessChannel σ]

/-
  What a command may come to.  The channel is not asked and
  nothing changes, and then a command succeeds only if the
  process is where it was to get.  Or the channel is asked, and
  its reply decides whether the command fails or is carried out.
-/
inductive Outcome
    (command : Command)
    (c : Caller σ) :
    Except Interruption Unit → Caller σ → Prop where
| unasked
    {result : Except Interruption Unit}
    (hAsks : ¬ command.Asks c.process.state)
    (hThere :
      result = .ok () → command.goal = some c.process.state) :
    Outcome command c result c
| failed
    {e : Interruption}
    (hAsks : command.Asks c.process.state)
    (hEarns :
      command.call.Earns (command.reply c.process) (.error e)) :
    Outcome command c (.error e) (command.asked c)
| carriedOut
    (hAsks : command.Asks c.process.state)
    (hEarns :
      command.call.Earns (command.reply c.process) (.ok ())) :
    Outcome command c (.ok ())
      (command.noted (command.reply c.process).bytes
        (command.asked c))

/- A command that fails unasked leaves its caller alone. -/
theorem Outcome.unasked_error
    {command : Command}
    {c : Caller σ}
    {e : Interruption}
    (hAsks : ¬ command.Asks c.process.state) :
    Outcome command c (.error e) c :=
  .unasked hAsks fun hOk => by cases hOk

variable {p : LiveProcess σ}
variable {log : Log}
variable {command : Command}

omit [ProcessChannel σ] in
/- A request takes the channel along, whatever it answers. -/
theorem run_request
    (p : LiveProcess σ)
    (log : Log)
    (question : StateM σ (Except String α)) :
    ∃ log',
      request question ⟨p, log⟩ =
        (match (question p.channel).1 with
          | .ok a => .ok a
          | .error text => .error (.error (.io text)),
          ⟨{ p with channel := (question p.channel).2 },
            log'⟩) := by
  unfold request Executor.execute
  rw [if_neg (by decide), Activity.run_bind]
  simp only [Activity.emit, Activity.run_bind, ask]
  cases (question p.channel).1 with
  | ok a => exact ⟨_, rfl⟩
  | error text => exact ⟨_, rfl⟩

omit [ProcessChannel σ] in
/- Only a process that is stopped passes the check. -/
theorem run_checkStopped
    (p : LiveProcess σ)
    (log : Log)
    (operation : String) :
    (p.state = .stopped ∧
        checkStopped operation ⟨p, log⟩ = (.ok (), ⟨p, log⟩)) ∨
      p.state ≠ .stopped ∧
        ∃ e, checkStopped operation ⟨p, log⟩ =
          (.error e, ⟨p, log⟩) := by
  unfold checkStopped
  rw [Activity.run_bind]
  simp only [Activity.reading]
  by_cases hStopped : p.state = .stopped
  case pos =>
    rw [hStopped]
    exact .inl ⟨rfl, rfl⟩
  case neg =>
    refine .inr ⟨hStopped, ?_⟩
    cases hState : p.state with
    | stopped => exact absurd hState hStopped
    | running | terminated | noProcess => exact ⟨_, rfl⟩

omit [ProcessChannel σ] in
/- What was transferred decides, and the check changes nothing. -/
theorem run_checkWhole
    (call : Call)
    (reply : Reply)
    {count : Nat}
    (hCount : reply.count? = some count)
    (s : Logged (LiveProcess σ)) :
    ∃ result,
      checkWhole call.place call.length count s = (result, s) ∧
        call.Earns reply result := by
  unfold checkWhole
  rcases Nat.lt_or_ge count call.length with hShort | hWhole
  · rw [if_pos hShort, Activity.run_bind]
    rcases Nat.lt_or_ge (call.place + count) Word.limit with
      hNear | hFar
    · have hAdd :
          Word.add call.place count = .ok (call.place + count) :=
        if_pos hNear
      rw [hAdd]
      exact ⟨_, rfl, .short hCount hShort hNear⟩
    · have hAdd :
          Word.add call.place count = .error .addOverflow :=
        if_neg (Nat.not_lt_of_le hFar)
      rw [hAdd]
      exact ⟨_, rfl, .beyond hCount hShort hFar⟩
  · rw [if_neg (Nat.not_lt_of_le hWhole)]
    exact ⟨_, rfl, .whole hCount hWhole⟩

/- A buffer is filled only with all that the channel transfers. -/
theorem outcome_read
    (a : Nat)
    (buffer : Destination)
    (p : LiveProcess σ)
    (log : Log) :
    Outcome (.read a buffer) ⟨p, buffer⟩
      (read a ⟨⟨p, buffer⟩, log⟩).1
      (read a ⟨⟨p, buffer⟩, log⟩).2.state := by
  unfold read
  simp only [Activity.run_bind, onProcess, Activity.within,
    Activity.reading, Activity.change]
  rcases run_checkStopped p log "read its memory" with
    ⟨hStopped, hCheck⟩ | ⟨hRuns, e, hCheck⟩
  · rw [hCheck]
    dsimp only
    rcases run_request p log
        (ProcessChannel.read a buffer.size) with
      ⟨log', hRequest⟩
    rw [hRequest]
    cases hAnswer :
        (ProcessChannel.read a buffer.size p.channel).1 with
    | error text =>
        have hReply :
            Command.reply (.read a buffer) p = .refused text :=
          congrArg (Reply.ofAnswer .gave) hAnswer
        exact .failed hStopped (hReply ▸ .refused)
    | ok bs =>
        have hReply :
            Command.reply (.read a buffer) p = .gave bs :=
          congrArg (Reply.ofAnswer .gave) hAnswer
        rcases run_checkWhole (.read a buffer.size)
            (.gave bs) rfl
            ⟨{ p with
                channel :=
                  (ProcessChannel.read a buffer.size
                    p.channel).2 }, log'⟩ with
          ⟨result, hWhole, hEarns⟩
        dsimp only [Call.place, Call.length] at hWhole
        dsimp only
        rw [hWhole]
        rw [← hReply] at hEarns
        -- The buffer is filled only past the check.
        cases result with
        | error e => exact .failed hStopped hEarns
        | ok _ =>
            have hDone :
                Outcome (.read a buffer) ⟨p, buffer⟩ _ _ :=
              .carriedOut hStopped hEarns
            rw [hReply] at hDone
            exact hDone
  · rw [hCheck]
    exact .unasked_error hRuns

/- What a channel writes of some bytes decides about a write. -/
theorem outcome_write
    (a : Nat)
    (bs : List UInt8)
    (buffer : Destination)
    (p : LiveProcess σ)
    (log : Log) :
    Outcome (.write a bs) ⟨p, buffer⟩
      (write a bs ⟨p, log⟩).1
      ⟨(write a bs ⟨p, log⟩).2.state, buffer⟩ := by
  unfold write
  rw [Activity.run_bind]
  rcases run_checkStopped p log "write its memory" with
    ⟨hStopped, hCheck⟩ | ⟨hRuns, e, hCheck⟩
  · rw [hCheck]
    dsimp only
    rcases run_request p log (ProcessChannel.write a bs) with
      ⟨log', hRequest⟩
    rw [Activity.run_bind, hRequest]
    cases hAnswer : (ProcessChannel.write a bs p.channel).1 with
    | error text =>
        have hReply :
            Command.reply (.write a bs) p = .refused text :=
          congrArg (Reply.ofAnswer .took) hAnswer
        exact .failed hStopped (hReply ▸ .refused)
    | ok count =>
        have hReply :
            Command.reply (.write a bs) p = .took count :=
          congrArg (Reply.ofAnswer .took) hAnswer
        rcases run_checkWhole (.write a bs)
            (.took count) rfl
            ⟨{ p with
                channel :=
                  (ProcessChannel.write a bs p.channel).2 },
              log'⟩ with
          ⟨result, hWhole, hEarns⟩
        dsimp only [Call.place, Call.length] at hWhole
        dsimp only
        rw [hWhole]
        rw [← hReply] at hEarns
        cases result with
        | error e => exact .failed hStopped hEarns
        | ok _ => exact .carriedOut hStopped hEarns
  · rw [hCheck]
    exact .unasked_error hRuns

omit [ProcessChannel σ] in
/- Control of a process transfers no bytes. -/
theorem Command.length_of_goal
    {state : ProcessState}
    (hGoal : command.goal = some state) :
    command.call.length = 0 := by
  cases command with
  | suspend | resume | kill => rfl
  | read | write | threads => cases hGoal

omit [ProcessChannel σ] in
/- Control of a process leaves the buffer as it is. -/
theorem Command.fill_of_goal
    {state : ProcessState}
    (hGoal : command.goal = some state)
    (bs : List UInt8)
    (buffer : Destination) :
    command.fill bs buffer = buffer := by
  cases command with
  | suspend | resume | kill => rfl
  | read | write | threads => cases hGoal

omit [ProcessChannel σ] in
/- A call that transfers no bytes is all done once it is granted. -/
theorem earns_plain
    {call : Call}
    (hLength : call.length = 0)
    (answer : Except String α) :
    call.Earns (.ofAnswer (fun _ => .done) answer)
      (match answer with
        | .ok _ => .ok ()
        | .error text => .error (.error (.io text))) := by
  cases answer with
  | ok _ => exact .whole rfl (Nat.le_of_eq hLength)
  | error text => exact .refused

/-
  A request for another state is refused, or the process gets
  there and what follows from that is noted.
-/
theorem outcome_control
    {state : ProcessState}
    {question : StateM σ (Except String Unit)}
    {note : ObserverM (LiveProcess σ) Unit}
    (p : LiveProcess σ)
    (buffer : Destination)
    (log : Log)
    (hAsks :
      command.Asks p.state ↔
        p.state ≠ state ∧ p.state ≠ .terminated)
    (hGoal : command.goal = some state)
    (hSend : command.call.send = Call.send.plainly question)
    (hNote :
      ∀ p log, ∃ log',
        note ⟨p, log⟩ =
          (.ok (),
            ⟨{ p with epoch := p.epoch + command.epochs },
              log'⟩)) :
    Outcome command ⟨p, buffer⟩
      (control state question note ⟨p, log⟩).1
      ⟨(control state question note ⟨p, log⟩).2.state, buffer⟩ := by
  unfold control
  rw [Activity.run_bind]
  dsimp only [Activity.reading]
  by_cases hThere : p.state = state
  · rw [if_pos hThere]
    refine .unasked (fun hNeeds => (hAsks.mp hNeeds).1 hThere) ?_
    exact fun _ => hThere ▸ hGoal
  rw [if_neg hThere]
  by_cases hTerminated : p.state = .terminated
  · rw [if_pos hTerminated]
    exact
      .unasked_error fun hNeeds =>
        (hAsks.mp hNeeds).2 hTerminated
  rw [if_neg hTerminated]
  have hNeeds := hAsks.mpr ⟨hThere, hTerminated⟩
  have hEarns :=
    earns_plain (Command.length_of_goal hGoal)
      (question p.channel).1
  have hReply :
      command.reply p =
        .ofAnswer (fun _ => .done) (question p.channel).1 := by
    rw [Command.reply, hSend]
    rfl
  rw [← hReply] at hEarns
  have hAsked :
      command.asked ⟨p, buffer⟩ =
        ⟨{ p with channel := (question p.channel).2 }, buffer⟩ := by
    rw [Command.asked, hSend]
    rfl
  rcases run_request p log question with ⟨log', hRequest⟩
  rw [Activity.run_bind, hRequest]
  cases hAnswer : (question p.channel).1 with
  | error text =>
      rw [hAnswer] at hEarns
      have hFailed : Outcome command ⟨p, buffer⟩ _ _ :=
        .failed hNeeds hEarns
      rw [hAsked] at hFailed
      exact hFailed
  | ok _ =>
      rw [hAnswer] at hEarns
      have hDone : Outcome command ⟨p, buffer⟩ _ _ :=
        .carriedOut hNeeds hEarns
      rw [hAsked, Command.noted, hGoal,
        Command.fill_of_goal hGoal] at hDone
      rcases hNote
          { p with state, channel := (question p.channel).2 }
          log' with
        ⟨log'', hNoted⟩
      dsimp only
      rw [Activity.run_bind]
      dsimp only [enter, Activity.change]
      rw [hNoted]
      exact hDone

/- The threads of a process are told unless it has terminated. -/
theorem outcome_threads
    (p : LiveProcess σ)
    (buffer : Destination)
    (log : Log) :
    Outcome .threads ⟨p, buffer⟩
      ((threads ⟨p, log⟩).1.map fun _ => ())
      ⟨(threads ⟨p, log⟩).2.state, buffer⟩ := by
  have hAnswered
      (p : LiveProcess σ)
      (hAsks : Command.threads.Asks p.state) :
      Outcome .threads ⟨p, buffer⟩
        ((request ProcessChannel.threads ⟨p, log⟩).1.map
          fun _ => ())
        ⟨(request ProcessChannel.threads ⟨p, log⟩).2.state,
          buffer⟩ := by
    have hEarns :
        Command.threads.call.Earns (Command.threads.reply p) _ :=
      earns_plain rfl (ProcessChannel.threads p.channel).1
    rcases run_request p log ProcessChannel.threads with
      ⟨log', hRequest⟩
    rw [hRequest]
    cases hAnswer : (ProcessChannel.threads p.channel).1 with
    | ok _ =>
        rw [hAnswer] at hEarns
        exact .carriedOut hAsks hEarns
    | error text =>
        rw [hAnswer] at hEarns
        exact .failed hAsks hEarns
  rcases p with ⟨channel, state, epoch, _, _, _⟩
  cases state with
  | terminated => exact .unasked_error fun hAsks => hAsks rfl
  | stopped | running | noProcess => exact hAnswered _ nofun

/- Every command comes to one of its outcomes. -/
theorem outcome_exchange
    (command : Command)
    (s : Logged (LiveProcess σ)) :
    Outcome command ⟨s.state, command.buffer⟩
      (exchange command s).1.result
      (exchange command s).1.after := by
  rcases s with ⟨p, log⟩
  cases command with
  | read a buffer => exact outcome_read a buffer p log
  | write a bs => exact outcome_write a bs (.zeros 0) p log
  | suspend =>
      exact outcome_control p (.zeros 0) log Iff.rfl rfl rfl
        fun p log => ⟨_, rfl⟩
  | resume =>
      exact outcome_control p (.zeros 0) log Iff.rfl rfl rfl
        fun p log => ⟨_, rfl⟩
  | kill =>
      exact outcome_control p (.zeros 0) log
        ⟨fun hAsks => ⟨hAsks, hAsks⟩, And.left⟩ rfl rfl
        fun p log => ⟨_, rfl⟩
  | threads =>
      have hThreads := outcome_threads p (.zeros 0) log
      dsimp only [exchange, Command.perform]
      rw [Activity.run_bind]
      dsimp only [onProcess, Activity.within]
      cases hCase : (threads ⟨p, log⟩).1 with
      | ok _ =>
          rw [hCase] at hThreads
          exact hThreads
      | error e =>
          rw [hCase] at hThreads
          exact hThreads

end LiveProcess

------------------------------------------------------------
-- Recorded Channels
------------------------------------------------------------

/-
  A channel with a record of the calls that reached it and of
  its replies, the first call first.  It answers what the
  channel answers.
-/
structure Recorder (σ : Type) where
  channel : σ
  traffic : List (Call × Reply) := []
deriving DecidableEq, Repr

namespace Recorder

variable {σ α : Type} [ProcessChannel σ]

/- Ask the channel, and record the call with the reply to it. -/
def recording
    (call : Call)
    (granted : α → Reply)
    (question : StateM σ (Except String α)) :
    StateM (Recorder σ) (Except String α) :=
  fun r =>
    let answer := question r.channel
    (answer.1,
      ⟨answer.2,
        r.traffic ++ [(call, .ofAnswer granted answer.1)]⟩)

end Recorder

instance {σ : Type} [ProcessChannel σ] :
    ProcessChannel (Recorder σ) where
  read a count :=
    Recorder.recording (.read a count) .gave
      (ProcessChannel.read a count)
  write a bs :=
    Recorder.recording (.write a bs) .took
      (ProcessChannel.write a bs)
  suspend :=
    Recorder.recording .suspend (fun _ => .done)
      ProcessChannel.suspend
  resume :=
    Recorder.recording .resume (fun _ => .done)
      ProcessChannel.resume
  kill :=
    Recorder.recording .kill (fun _ => .done) ProcessChannel.kill
  threads :=
    Recorder.recording .threads (fun _ => .done)
      ProcessChannel.threads
  pageSize r := ProcessChannel.pageSize r.channel
  byteOrder r := ProcessChannel.byteOrder r.channel
  wordSize r := ProcessChannel.wordSize r.channel

/- A call is recorded with the reply of the channel to it. -/
theorem Call.send_recorder
    {σ : Type}
    [ProcessChannel σ]
    (call : Call)
    (r : Recorder σ) :
    call.send r =
      ((call.send r.channel).1,
        ⟨(call.send r.channel).2,
          r.traffic ++ [(call, (call.send r.channel).1)]⟩) := by
  cases call <;> rfl

------------------------------------------------------------
-- Work on What Is Left of a State
------------------------------------------------------------

namespace Activity

variable {ε σ τ α β : Type}

/-
  One piece of work does on what is left of a state whatever
  the other does on the whole state.
-/
def Mirrors
    (rest : τ → σ)
    (whole : Activity ε τ α)
    (part : Activity ε σ α) : Prop :=
  ∀ s,
    part ⟨rest s.state, s.log⟩ =
      ((whole s).1, ⟨rest (whole s).2.state, (whole s).2.log⟩)

variable {rest : τ → σ}

theorem mirrors_pure
    (a : α) :
    Mirrors rest (pure a : Activity ε τ α) (pure a) :=
  fun _ => rfl

/- Breaking off. -/
theorem mirrors_throw
    (e : ε) :
    Mirrors rest (throw e : Activity ε τ α) (throw e) :=
  fun _ => rfl

/- Reporting an event. -/
theorem mirrors_emit
    (e : Event) :
    Mirrors rest (emit e : Activity ε τ Unit) (emit e) :=
  fun _ => rfl

/- Reading what is left off the state. -/
theorem mirrors_reading
    (g : σ → α) :
    Mirrors rest (reading fun t => g (rest t) : Activity ε τ α)
      (reading g) :=
  fun _ => rfl

/- A change that can be made to what is left. -/
theorem mirrors_change
    {f : τ → τ}
    {g : σ → σ}
    (hRest : ∀ t, g (rest t) = rest (f t)) :
    Mirrors rest (change f : Activity ε τ Unit) (change g) := by
  intro s
  exact Prod.ext rfl (congrArg (Logged.mk · s.log) (hRest s.state))

theorem mirrors_bind
    {whole : Activity ε τ α}
    {part : Activity ε σ α}
    {next : α → Activity ε τ β}
    {nextPart : α → Activity ε σ β}
    (hWork : Mirrors rest whole part)
    (hNext : ∀ a, Mirrors rest (next a) (nextPart a)) :
    Mirrors rest (whole >>= next) (part >>= nextPart) := by
  intro s
  rw [run_bind, run_bind, hWork s]
  cases hCase : (whole s).1 with
  | ok a => exact hNext a (whole s).2
  | error e => rfl

end Activity

------------------------------------------------------------
-- Records Change No Answer
------------------------------------------------------------

namespace LiveProcess

open Activity

variable {σ α : Type}

/- A process without the record of what reached its channel. -/
def unrecorded (p : LiveProcess (Recorder σ)) : LiveProcess σ where
  channel := p.channel.channel
  state := p.state
  epoch := p.epoch
  pageSize := p.pageSize
  byteOrder := p.byteOrder
  wordSize := p.wordSize

end LiveProcess

/- A caller of a process without the record. -/
def Caller.unrecorded
    {σ : Type}
    (c : Caller (Recorder σ)) : Caller σ :=
  ⟨c.process.unrecorded, c.buffer⟩

namespace LiveProcess

open Activity

variable {σ α : Type}

/- A request that is recorded. -/
theorem mirrors_request
    (call : Call)
    (granted : α → Reply)
    (question : StateM σ (Except String α)) :
    Mirrors unrecorded
      (request (Recorder.recording call granted question))
      (request question) := by
  refine mirrors_bind ?_ fun answer => ?_
  · unfold Executor.execute
    rw [if_neg (by decide), if_neg (by decide)]
    refine mirrors_bind (mirrors_emit _) fun _ => ?_
    refine mirrors_bind (fun _ => rfl) fun _ => ?_
    exact mirrors_bind (mirrors_emit _) fun _ => mirrors_pure _
  · cases answer with
    | ok a => exact mirrors_pure a
    | error text => exact mirrors_throw _

/- The check that a process is stopped. -/
theorem mirrors_checkStopped
    (operation : String) :
    Mirrors (unrecorded (σ := σ)) (checkStopped operation)
      (checkStopped operation) := by
  refine mirrors_bind (mirrors_reading _) fun state => ?_
  cases state with
  | stopped => exact mirrors_pure ()
  | running | terminated | noProcess => exact mirrors_throw _

/- The check that all was transferred. -/
theorem mirrors_checkWhole
    (a count transferred : Nat) :
    Mirrors (unrecorded (σ := σ))
      (checkWhole a count transferred)
      (checkWhole a count transferred) := by
  unfold checkWhole
  split
  · refine mirrors_bind ?_ fun _ => mirrors_throw _
    cases Word.add a transferred with
    | ok missing => exact mirrors_pure missing
    | error f => exact mirrors_throw _
  · exact mirrors_pure ()

/- Work on the process of a caller. -/
theorem mirrors_onProcess
    {whole : ObserverM (LiveProcess (Recorder σ)) α}
    {part : ObserverM (LiveProcess σ) α}
    (hWork : Mirrors unrecorded whole part) :
    Mirrors Caller.unrecorded (onProcess whole)
      (onProcess part) := by
  intro s
  have hRun := hWork ⟨s.state.process, s.log⟩
  dsimp only [onProcess, within, Caller.unrecorded]
  rw [hRun]

/-
  Bringing a process into another state, by a request that is
  recorded.
-/
theorem mirrors_control
    {state : ProcessState}
    {call : Call}
    {question : StateM σ (Except String Unit)}
    {note : ObserverM (LiveProcess (Recorder σ)) Unit}
    {notePart : ObserverM (LiveProcess σ) Unit}
    (hNote : Mirrors unrecorded note notePart) :
    Mirrors unrecorded
      (control state
        (Recorder.recording call (fun _ => .done) question) note)
      (control state question notePart) := by
  refine mirrors_bind (mirrors_reading _) fun present => ?_
  split
  · exact mirrors_pure ()
  · split
    · exact mirrors_throw _
    · refine mirrors_bind (mirrors_request _ _ _) fun _ => ?_
      exact mirrors_bind (mirrors_change fun _ => rfl) fun _ =>
        hNote

variable [ProcessChannel σ]

/- Reading memory through a recorded channel. -/
theorem mirrors_read
    (a : Nat) :
    Mirrors (Caller.unrecorded (σ := σ)) (read a) (read a) := by
  refine mirrors_bind ?_ fun _ => ?_
  · exact mirrors_onProcess (mirrors_checkStopped _)
  refine mirrors_bind (mirrors_reading _) fun count => ?_
  refine mirrors_bind ?_ fun bs => ?_
  · exact mirrors_onProcess (mirrors_request _ _ _)
  refine mirrors_bind ?_ fun _ => mirrors_change fun _ => rfl
  exact mirrors_onProcess (mirrors_checkWhole _ _ _)

/- Writing memory through a recorded channel. -/
theorem mirrors_write
    (a : Nat)
    (bs : List UInt8) :
    Mirrors (unrecorded (σ := σ)) (LiveProcess.write a bs)
      (LiveProcess.write a bs) := by
  refine mirrors_bind (mirrors_checkStopped _) fun _ => ?_
  refine mirrors_bind (mirrors_request _ _ _) fun written => ?_
  exact mirrors_checkWhole _ _ _

/- The threads of a process behind a recorded channel. -/
theorem mirrors_threads :
    Mirrors (unrecorded (σ := σ)) threads threads := by
  refine mirrors_bind (mirrors_reading _) fun state => ?_
  cases state with
  | terminated => exact mirrors_throw _
  | stopped | running | noProcess => exact mirrors_request _ _ _

/- Commands come to the same through a recorded channel. -/
theorem mirrors_perform
    (command : Command) :
    Mirrors (Caller.unrecorded (σ := σ)) command.perform
      command.perform := by
  cases command with
  | read a buffer => exact mirrors_read a
  | write a bs => exact mirrors_onProcess (mirrors_write a bs)
  | suspend =>
      refine mirrors_onProcess (mirrors_control ?_)
      refine mirrors_bind (mirrors_change fun _ => rfl) fun _ => ?_
      exact mirrors_bind (mirrors_reading _) fun _ =>
        mirrors_emit _
  | resume =>
      exact mirrors_onProcess (mirrors_control (mirrors_emit _))
  | kill =>
      exact mirrors_onProcess (mirrors_control (mirrors_emit _))
  | threads =>
      exact mirrors_bind (mirrors_onProcess mirrors_threads)
        fun _ => mirrors_pure ()

/- An exchange without the record of what reached the channel. -/
def Exchange.unrecorded
    (e : Exchange (Recorder σ)) : Exchange σ :=
  ⟨e.command, e.before.unrecorded, e.result, e.after.unrecorded⟩

/- A command comes to the same through a recorded channel. -/
theorem exchange_unrecorded
    (command : Command)
    (p : LiveProcess (Recorder σ))
    (log : Log) :
    exchange command ⟨p.unrecorded, log⟩ =
      ((exchange command ⟨p, log⟩).1.unrecorded,
        (exchange command ⟨p, log⟩).2) := by
  have hRun :
      command.perform ⟨⟨p.unrecorded, command.buffer⟩, log⟩ = _ :=
    mirrors_perform command ⟨⟨p, command.buffer⟩, log⟩
  dsimp only [exchange]
  rw [hRun]
  rfl

/-
  Commands through a recorded channel come to what they come to
  through the channel itself.
-/
theorem exchanges_unrecorded
    (commands : List Command)
    (p : LiveProcess (Recorder σ))
    (log : Log) :
    (exchanges commands ⟨p, log⟩).map Exchange.unrecorded =
      exchanges commands ⟨p.unrecorded, log⟩ := by
  induction commands generalizing p log with
  | nil => rfl
  | cons command rest ih =>
      rw [exchanges, exchanges, List.map_cons, ih,
        exchange_unrecorded]
      rfl

------------------------------------------------------------
-- Orderly Exchanges
------------------------------------------------------------

namespace Exchange

variable {σ : Type}

/- What reached the channel in an exchange, with its replies. -/
def traffic
    (e : Exchange (Recorder σ)) : List (Call × Reply) :=
  e.after.process.channel.traffic.drop
    e.before.process.channel.traffic.length

/- Did the channel stop a process that ran? -/
def stops
    (e : Exchange (Recorder σ)) : Bool :=
  e.before.process.state = .running ∧
    (Call.suspend, Reply.done) ∈ e.traffic

/-
  The record of the channel goes on by no more than the call of
  the command, whose reply decides what the command comes to.
  The channel is asked exactly where the state of the process
  calls for it: for memory only while the process is stopped, and
  for nothing once it has terminated.  A terminated process stays
  so.  The epoch counts how often the channel stopped a process
  that ran.  A command that succeeds leaves the process in the
  state that it is to get into, and one that fails changes
  neither the state nor the epoch nor the buffer.
-/
structure Orderly
    (e : Exchange (Recorder σ)) : Prop where
  recorded :
    e.after.process.channel.traffic =
      e.before.process.channel.traffic ++ e.traffic
  answered :
    ∀ call reply, (call, reply) ∈ e.traffic →
      call = e.command.call ∧ call.Earns reply e.result
  asks :
    e.traffic = [] ↔
      ¬ e.command.Asks e.before.process.state
  memory :
    (∃ call reply, (call, reply) ∈ e.traffic ∧ call.IsMemory) →
      e.before.process.state = .stopped
  terminated :
    e.before.process.state = .terminated →
      e.traffic = [] ∧ e.after.process.state = .terminated
  idle :
    e.traffic = [] →
      e.after = e.before ∧
        (e.result = .ok () →
          e.command.goal = some e.before.process.state)
  epoch :
    e.after.process.epoch =
      e.before.process.epoch + if e.stops then 1 else 0
  entered :
    e.result = .ok () →
      e.after.process.state =
        e.command.goal.getD e.before.process.state
  filled :
    e.result = .ok () →
      ∀ call reply, (call, reply) ∈ e.traffic →
        e.after.buffer =
          e.command.fill reply.bytes e.before.buffer
  failed :
    e.result ≠ .ok () →
      e.after.process.state = e.before.process.state ∧
        e.after.process.epoch = e.before.process.epoch ∧
          e.after.buffer = e.before.buffer

end Exchange

variable {σ : Type} [ProcessChannel σ]
variable {command : Command}
variable {state : ProcessState}
variable {c c' : Caller (Recorder σ)}
variable {result : Except Interruption Unit}

/- Memory is asked for only while the process is stopped. -/
theorem Command.Asks.stopped
    (hAsks : command.Asks state)
    (hMemory : command.call.IsMemory) :
    state = .stopped := by
  cases command with
  | read | write => exact hAsks
  | suspend | resume | kill | threads => exact hMemory.elim

/- No command asks anything of a process that has terminated. -/
theorem Command.not_asks_terminated :
    ¬ command.Asks .terminated := by
  intro hAsks
  cases command with
  | read | write => cases hAsks
  | suspend | resume => exact hAsks.2 rfl
  | kill | threads => exact hAsks rfl

/- Only one command asks the channel to stop the process. -/
theorem Command.eq_suspend_of_call
    (hCall : command.call = .suspend) :
    command = .suspend := by
  cases command with
  | suspend => rfl
  | read | write | resume | kill | threads => cases hCall

omit [ProcessChannel σ] in
/- What was added to the record reached the channel. -/
theorem Exchange.traffic_eq
    {traffic : List (Call × Reply)}
    (hRecord :
      c'.process.channel.traffic =
        c.process.channel.traffic ++ traffic) :
    (Exchange.mk command c result c').traffic = traffic := by
  unfold Exchange.traffic
  rw [hRecord, List.drop_left]

omit [ProcessChannel σ] in
/- Only a stop begins a new epoch. -/
theorem Command.epochs_eq :
    command.epochs = if command = .suspend then 1 else 0 := by
  cases command <;> rfl

/- The call of a command is recorded with the reply to it. -/
theorem Command.traffic_asked :
    (command.asked c).process.channel.traffic =
      c.process.channel.traffic ++
        [(command.call, command.reply c.process)] := by
  dsimp only [Command.asked, Command.reply]
  rw [Call.send_recorder]

/- A stop that was granted succeeds. -/
theorem eq_ok_of_earns_done
    (hEarns : Call.suspend.Earns .done result) :
    result = .ok () := by
  cases hEarns with
  | short _ hShort => exact absurd hShort (Nat.not_lt_zero _)
  | beyond _ hShort => exact absurd hShort (Nat.not_lt_zero _)
  | whole => rfl

/- A stop that succeeds was granted. -/
theorem reply_eq_done_of_earns
    {p : LiveProcess σ}
    (hEarns :
      Call.suspend.Earns (Command.suspend.reply p) (.ok ())) :
    Command.suspend.reply p = .done := by
  change
    Call.suspend.Earns
      (.ofAnswer (fun _ => .done)
        (ProcessChannel.suspend p.channel).1) (.ok ()) at hEarns
  change
    Reply.ofAnswer (fun _ => .done)
      (ProcessChannel.suspend p.channel).1 = .done
  cases hAnswer : (ProcessChannel.suspend p.channel).1 with
  | ok _ => rfl
  | error text =>
      rw [hAnswer] at hEarns
      rcases hEarns with _ | _ | _ | ⟨⟨⟩⟩

/-
  A known process whose channel was asked was stopped exactly if
  that is what the command is for and it succeeds.
-/
theorem stops_iff
    (hAsks : command.Asks c.process.state)
    (hKnown : c.process.state ≠ .noProcess)
    (hTraffic :
      (Exchange.mk command c result c').traffic =
        [(command.call, command.reply c.process)])
    (hEarns :
      command.call.Earns (command.reply c.process) result) :
    (Exchange.mk command c result c').stops ↔
      command = .suspend ∧ result = .ok () := by
  unfold Exchange.stops
  rw [decide_eq_true_iff, hTraffic, List.mem_singleton]
  constructor
  · rintro ⟨-, hStop⟩
    rcases Prod.mk.inj hStop with ⟨hCall, hReply⟩
    rw [← hCall, ← hReply] at hEarns
    exact
      ⟨Command.eq_suspend_of_call hCall.symm,
        eq_ok_of_earns_done hEarns⟩
  · rintro ⟨rfl, rfl⟩
    refine ⟨?_, congrArg _ (reply_eq_done_of_earns hEarns).symm⟩
    cases hState : c.process.state with
    | stopped => exact absurd hState hAsks.1
    | running => rfl
    | terminated => exact absurd hState hAsks.2
    | noProcess => exact absurd hState hKnown

omit [ProcessChannel σ] in
/- An exchange that did not reach the channel is orderly. -/
theorem Exchange.Orderly.of_unasked
    (hAsks : ¬ command.Asks c.process.state)
    (hThere :
      result = .ok () → command.goal = some c.process.state) :
    Orderly ⟨command, c, result, c⟩ := by
  have hTraffic :
      (Exchange.mk command c result c).traffic = [] :=
    List.drop_length
  have hStops : ¬ (Exchange.mk command c result c).stops := by
    unfold stops
    rw [decide_eq_true_iff, hTraffic]
    exact fun hStop => nomatch hStop.2
  refine ⟨?_, ?_, ?_, ?_, ?_, ?_, ?_, ?_, ?_, ?_⟩
  · rw [hTraffic, List.append_nil]
  · rw [hTraffic]
    nofun
  · exact ⟨fun _ => hAsks, fun _ => hTraffic⟩
  · rw [hTraffic]
    rintro ⟨_, _, hMem, -⟩
    cases hMem
  · exact fun hTerminated => ⟨hTraffic, hTerminated⟩
  · exact fun _ => ⟨rfl, hThere⟩
  · rw [if_neg hStops, Nat.add_zero]
  · intro hOk
    rw [hThere hOk]
    rfl
  · rw [hTraffic]
    nofun
  · exact fun _ => ⟨rfl, rfl, rfl⟩

/-
  An exchange that reached the channel is orderly if it leaves
  the caller as the result requires.
-/
theorem Exchange.Orderly.of_asked
    (hAsks : command.Asks c.process.state)
    (hKnown : c.process.state ≠ .noProcess)
    (hRecord :
      c'.process.channel.traffic =
        c.process.channel.traffic ++
          [(command.call, command.reply c.process)])
    (hEarns :
      command.call.Earns (command.reply c.process) result)
    (hDone :
      result = .ok () →
        c'.process.state =
            command.goal.getD c.process.state ∧
          c'.process.epoch = c.process.epoch + command.epochs ∧
            c'.buffer =
              command.fill (command.reply c.process).bytes
                c.buffer)
    (hFailed :
      result ≠ .ok () →
        c'.process.state = c.process.state ∧
          c'.process.epoch = c.process.epoch ∧
            c'.buffer = c.buffer) :
    Orderly ⟨command, c, result, c'⟩ := by
  have hTraffic :
      (Exchange.mk command c result c').traffic = _ :=
    traffic_eq hRecord
  have hStops := stops_iff hAsks hKnown hTraffic hEarns
  have hOnly
      {call : Call}
      {reply : Reply}
      (hMem :
        (call, reply) ∈
          (Exchange.mk command c result c').traffic) :
      call = command.call ∧ reply = command.reply c.process := by
    rw [hTraffic] at hMem
    exact Prod.mk.inj (List.mem_singleton.mp hMem)
  refine
    ⟨hRecord.trans (hTraffic ▸ rfl), ?_, ?_, ?_, ?_, ?_, ?_,
      fun hOk => (hDone hOk).1, ?_, hFailed⟩
  · intro call reply hMem
    rcases hOnly hMem with ⟨rfl, rfl⟩
    exact ⟨rfl, hEarns⟩
  · rw [hTraffic]
    exact ⟨nofun, fun hNot => absurd hAsks hNot⟩
  · rintro ⟨call, reply, hMem, hMemory⟩
    rcases hOnly hMem with ⟨rfl, rfl⟩
    exact hAsks.stopped hMemory
  · intro hTerminated
    rw [hTerminated] at hAsks
    exact absurd hAsks Command.not_asks_terminated
  · intro hIdle
    rw [hTraffic] at hIdle
    cases hIdle
  · -- No stop is counted where the channel refused it.
    cases result with
    | error e =>
        rw [if_neg fun hStop => nomatch (hStops.mp hStop).2]
        exact (hFailed nofun).2.1
    | ok _ =>
        rw [Command.epochs_eq] at hDone
        simp only [hStops, and_true]
        exact (hDone rfl).2.1
  · intro hOk call reply hMem
    rcases hOnly hMem with ⟨rfl, rfl⟩
    exact (hDone hOk).2.2

/- What comes of a command is orderly. -/
theorem Outcome.orderly
    (hOutcome : Outcome command c result c')
    (hKnown : c.process.state ≠ .noProcess) :
    Exchange.Orderly ⟨command, c, result, c'⟩ := by
  cases hOutcome with
  | unasked hAsks hThere => exact .of_unasked hAsks hThere
  | failed hAsks hEarns =>
      exact
        .of_asked hAsks hKnown Command.traffic_asked hEarns nofun
          fun _ => ⟨rfl, rfl, rfl⟩
  | carriedOut hAsks hEarns =>
      exact
        .of_asked hAsks hKnown Command.traffic_asked hEarns
          (fun _ => ⟨rfl, rfl, rfl⟩) fun hFails => absurd rfl hFails

/- A known process stays known. -/
theorem Outcome.known
    (hOutcome : Outcome command c result c')
    (hKnown : c.process.state ≠ .noProcess) :
    c'.process.state ≠ .noProcess := by
  cases hOutcome with
  | unasked => exact hKnown
  | failed => exact hKnown
  | carriedOut =>
      cases command with
      | read | write | threads => exact hKnown
      | suspend | resume | kill => nofun

variable {s : Logged (LiveProcess (Recorder σ))}

/- Every exchange with a known process is orderly. -/
theorem orderly_exchange
    (command : Command)
    (hKnown : s.state.state ≠ .noProcess) :
    (exchange command s).1.Orderly :=
  (outcome_exchange command s).orderly hKnown

------------------------------------------------------------
-- Orderly Runs
------------------------------------------------------------

variable {commands : List Command}
variable {e : Exchange (Recorder σ)}
variable {earlier later : List (Exchange (Recorder σ))}

/- All exchanges of a known process are orderly. -/
theorem orderly_exchanges
    (hKnown : s.state.state ≠ .noProcess)
    (hMem : e ∈ exchanges commands s) :
    e.Orderly := by
  induction commands generalizing s with
  | nil => cases hMem
  | cons command rest ih =>
      rw [exchanges] at hMem
      rcases List.mem_cons.mp hMem with hFirst | hRest
      · rw [hFirst]
        exact orderly_exchange command hKnown
      · exact ih ((outcome_exchange command s).known hKnown) hRest

/- No traffic reaches a process that has terminated. -/
theorem terminated_exchanges
    (hTerminated : s.state.state = .terminated)
    (hMem : e ∈ exchanges commands s) :
    e.traffic = [] ∧ e.after.process.state = .terminated := by
  induction commands generalizing s with
  | nil => cases hMem
  | cons command rest ih =>
      have hKnown : s.state.state ≠ .noProcess := by
        rw [hTerminated]
        exact nofun
      have hOrderly := orderly_exchange command hKnown
      have hStays := hOrderly.terminated hTerminated
      rw [exchanges] at hMem
      rcases List.mem_cons.mp hMem with hFirst | hRest
      · rw [hFirst]
        exact hStays
      · exact ih hStays.2 hRest

/- What follows an exchange starts from what it left. -/
theorem exchanges_after
    (hSplit : exchanges commands s = earlier ++ e :: later) :
    ∃ rest log, later = exchanges rest ⟨e.after.process, log⟩ := by
  induction commands generalizing s earlier with
  | nil => simp [exchanges] at hSplit
  | cons command rest ih =>
      rw [exchanges] at hSplit
      cases earlier with
      | nil =>
          rcases List.cons.inj hSplit with ⟨hFirst, hRest⟩
          rw [← hFirst]
          exact ⟨rest, _, hRest.symm⟩
      | cons first others =>
          exact ih (List.cons.inj hSplit).2

/- The epoch counts how often a running process was stopped. -/
theorem epoch_exchanges
    (hKnown : s.state.state ≠ .noProcess)
    (hSplit : exchanges commands s = earlier ++ e :: later) :
    e.after.process.epoch =
      s.state.epoch + (earlier ++ [e]).countP Exchange.stops := by
  induction commands generalizing s earlier with
  | nil => simp [exchanges] at hSplit
  | cons command rest ih =>
      have hEpoch := (orderly_exchange command hKnown).epoch
      rw [exchanges] at hSplit
      cases earlier with
      | nil =>
          rw [← (List.cons.inj hSplit).1, List.nil_append,
            List.countP_singleton]
          exact hEpoch
      | cons first others =>
          -- The rest counts from the epoch that the first one left.
          rcases List.cons.inj hSplit with ⟨hFirst, hRest⟩
          rw [ih ((outcome_exchange command s).known hKnown) hRest,
            List.cons_append, List.countP_cons, ← hFirst]
          dsimp only
          rw [hEpoch]
          change s.state.epoch + _ + _ = _
          omega

/-
  Whatever the channel does and whatever is asked of a process
  that was stopped or running when it was attached: the record
  of its channel changes no answer, every exchange is orderly,
  the epoch is the number of stops of a process that ran, and
  once the process has terminated it stays so and nothing
  reaches the channel.
-/
theorem commands_keep_order
    (channel : σ)
    {state : ProcessState}
    (hState : state = .stopped ∨ state = .running)
    (commands : List Command)
    (log : Log) :
    (exchanges commands ⟨attach ⟨channel, []⟩ state, log⟩).map
        Exchange.unrecorded =
      exchanges commands ⟨attach channel state, log⟩ ∧
    (∀ e ∈ exchanges commands ⟨attach ⟨channel, []⟩ state, log⟩,
      Exchange.Orderly e) ∧
    ∀ earlier e later,
      exchanges commands ⟨attach ⟨channel, []⟩ state, log⟩ =
        earlier ++ e :: later →
      e.after.process.epoch =
          (earlier ++ [e]).countP Exchange.stops ∧
        (e.after.process.state = .terminated →
          ∀ e' ∈ later,
            e'.traffic = [] ∧
              e'.after.process.state = .terminated) := by
  have hKnown : state ≠ .noProcess := by
    rcases hState with hState | hState <;> rw [hState] <;> nofun
  refine ⟨?_, ?_, ?_⟩
  · exact exchanges_unrecorded commands _ log
  · exact fun e hMem => orderly_exchanges hKnown hMem
  · intro earlier e later hSplit
    refine ⟨?_, fun hTerminated e' hMem => ?_⟩
    · rw [epoch_exchanges hKnown hSplit]
      exact Nat.zero_add _
    · rcases exchanges_after hSplit with ⟨rest, log', hLater⟩
      rw [hLater] at hMem
      exact terminated_exchanges hTerminated hMem

/- A process that runs, and what a caller may ask of it. -/
def runningDebuggee : Debuggee where
  memory := [10, 20, 30, 40]
  stopped := false

def someCommands : List Command :=
  [
    .read 0 (.zeros 2), .suspend, .read 2 (.zeros 2),
    .read 3 (.bytes [7, 7]), .resume, .suspend, .kill, .threads
  ]

/-
  The process is stopped twice.  A read before the first stop
  does not reach it, and a read past the end of the memory stops
  short and leaves the buffer as it was.  A process that is
  taken to be stopped, but runs, refuses to be read.
-/
theorem commands_keep_order_debuggee :
    (exchanges someCommands
        ⟨attach ⟨runningDebuggee, []⟩ .running, {}⟩).map
      (fun e => (e.result.isOk, e.after.process.epoch,
        e.after.buffer.contents, e.traffic)) =
      [
        (false, 0, [0, 0], []),
        (true, 1, [], [(.suspend, .done)]),
        (true, 1, [30, 40], [(.read 2 2, .gave [30, 40])]),
        (false, 1, [7, 7], [(.read 3 2, .gave [40])]),
        (true, 1, [], [(.resume, .done)]),
        (true, 2, [], [(.suspend, .done)]),
        (true, 2, [], [(.kill, .done)]),
        (false, 2, [], [])
      ] ∧
    (exchanges [.read 0 (.bytes [7, 7])]
        ⟨attach ⟨runningDebuggee, []⟩ .stopped, {}⟩).map
      (fun e => (e.result.isOk, e.after.buffer.contents, e.traffic)) =
      [(false, [7, 7],
        [(.read 0 2, .refused "target is running")])] ∧
    (∀ e ∈ exchanges someCommands
        ⟨attach ⟨runningDebuggee, []⟩ .running, {}⟩,
      e.Orderly) ∧
    ∀ e ∈ exchanges [.read 0 (.bytes [7, 7])]
        ⟨attach ⟨runningDebuggee, []⟩ .stopped, {}⟩,
      e.Orderly :=
  ⟨by decide, by decide,
    (commands_keep_order runningDebuggee (.inr rfl)
      someCommands {}).2.1,
    (commands_keep_order runningDebuggee (.inl rfl)
      [.read 0 (.bytes [7, 7])] {}).2.1⟩

end LiveProcess

end BeltHeap
