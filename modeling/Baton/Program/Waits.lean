import Baton.Program.Machine

/-!
# Descriptors on a machine

Waits for descriptors and transfers through pipes. On the scheduler a wait is registered and the
thread suspends until there is an outcome for it; a transfer lets all runnable threads go first.
-/

namespace Baton

namespace Machine

/-- The entries of a call with the descriptors that the named ends have now. -/
def resolve (entries : List (Descriptor × Interest)) (m : Machine) :
    List (PollEntry Descriptor) :=
  entries.map fun e => .ask (match e.1 with
    | .pipe i side => m.pipes.descriptor i side
    | d => d) e.2

/-- The reply to a wait that ended with `ps`. -/
def selectedReply (ps : List (PollEntry Descriptor)) : Reply :=
  .selected (ps.countP PollEntry.isReady) (ps.map PollEntry.revents)

/-- Looks at the entries once, and waits on the scheduler if none is ready. -/
def selectEntries (me : ThreadId) (entries : List (PollEntry Descriptor)) (timeout : Option Span)
    (m : Machine) : Machine :=
  let polled := m.onSched (Sched.elapse Sched.pollCost)
  match m.system.poll entries with
  | .error e => polled.answer me (.io (.system e))
  | .ok (n, found) =>
    if n > 0 || timeout == some .zero then
      polled.answer me (.selected n (found.map PollEntry.revents))
    else match timeout with
      | none => (polled.onSched (Sched.await ⟨me, entries, none⟩)).push me [.collect]
      | some d => match polled.sched.clock.after? d with
        | some deadline =>
          (polled.onSched (Sched.await ⟨me, entries, some deadline⟩)).push me [.collect]
        | none => polled.panic me Instant.overflowText

/-- Polls without giving the turn away. -/
def pollHere (me : ThreadId) (entries : List (PollEntry Descriptor)) (timeout : Option Span)
    (m : Machine) : Machine :=
  match m.system.pollTimed m.sched.clock timeout entries with
  | none => m.panic me Instant.overflowText
  | some (.error e) => m.answer me (.io (.system e))
  | some (.ok (n, found)) =>
    if n > 0 || timeout.isSome then m.answer me (.selected n (found.map PollEntry.revents))
    else m.push me [.pollHere entries timeout]

/-- Waits for descriptors as the host does. -/
def select (me : ThreadId) (entries : List (Descriptor × Interest)) (timeout : Option Span)
    (m : Machine) : Machine :=
  match m.host with
  | .native => m.pollHere me (m.resolve entries) timeout
  | _ => m.selectEntries me (m.resolve entries) timeout

/-- Fetches the outcome of a wait, or suspends until there is one. -/
def collect (me : ThreadId) (m : Machine) : Machine :=
  match m.sched.delivery? me with
  | none => m.push me [.suspend, .collect]
  | some d =>
    (m.onSched (Sched.takeDelivery me)).answer me
      (match d with
        | .ok ps => selectedReply ps
        | .error e => .io (.system e))

/-- Keeps the error of a wait and forgets what was found. -/
def forgetFound (me : ThreadId) (m : Machine) : Machine :=
  match m.replyOf me with
  | .io _ => m
  | _ => m.answer me .null

/-- One round of a read or write: others run first, and the descriptor has to be ready. The round
goes on with the descriptor that it began with, also when the end is closed meanwhile. -/
def transferRound (me : ThreadId) (c : PipeCall) (m : Machine) : Machine :=
  let entries : List (PollEntry Descriptor) := [.ask (.pipe c.pipe c.side) c.direction.interest]
  match m.host with
  | .coop => m.push me [.pause, .selectHere entries none, .attempt c]
  | .native => m.push me [.pollHere entries none, .attempt c]
  | .outside => m.answer me (.io .notInScheduler)

/-- Starts a read or write. A closed end has no descriptor to begin with. -/
def transfer (me : ThreadId) (c : PipeCall) (m : Machine) : Machine :=
  if (m.pipes.get c.pipe).isOpen c.side then m.transferRound me c
  else m.answer me (.io (.system .badDescriptor))

/-- What the system call of a read or write gives, with the pipe after it; `none` if the call does
not return yet. -/
def systemCall (c : PipeCall) (p : Pipe) : Option (Except Errno Reply × Pipe) :=
  if !p.isOpen c.side then some (.error .badDescriptor, p)
  else match c with
    | .read _ n => (p.read n).map fun (bs, p) => (.ok (.text (Text.Utf8.decodeLenient bs)), p)
    | .write _ bs => match p.write bs with
      | .error e => some (.error e, p)
      | .ok ([], p) => some (.ok (.int bs.length), p)
      | .ok (_ :: _, _) => none

/-- Makes the system call of a read or write, unless the wait before it failed. -/
def attempt (me : ThreadId) (c : PipeCall) (m : Machine) : Machine :=
  match m.replyOf me with
  | .io _ => m
  | _ => match systemCall c (m.pipes.get c.pipe) with
    | none => m.push me [.attempt c]
    | some (r, p) =>
      let m := m.setPipe c.pipe p
      match Transfer.next r with
      | .done (.ok reply) => m.answer me reply
      | .done (.error e) => m.answer me (.io (.system e))
      | .again true => m.push me [.pause, .transferRound c]
      | .again false => m.push me [.transferRound c]

/-- Closes an end of a pipe. -/
def close (index : Nat) (side : PipeEnd) (m : Machine) : Machine :=
  m.setPipe index ((m.pipes.get index).close side)

end Machine

end Baton
