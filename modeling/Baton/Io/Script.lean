import Baton.Io.Pipe
import Baton.Io.Transfer

/-!
# Transfers with a scripted peer

One end of a pipe is used by a transfer, and a peer at the other end acts by a script: each wait
for readiness plays one step of it. When the script is over, waiting fails. This is a channel in
the sense of transfers, on which a whole transfer can be played.
-/

namespace Baton

/-- What the peer does during one wait, in this order. -/
structure PeerStep where
  /-- Bytes to write. -/
  feed : Option (List UInt8)
  /-- How many bytes to read at most. -/
  drain : Option Nat
  /-- Whether to close its end. -/
  close : Bool
  /-- The error with which the wait then ends. -/
  error : Option Errno

/-- A pipe with a scripted peer. -/
structure Stage where
  pipe : Pipe
  /-- The steps that have not been played. -/
  script : List PeerStep
  /-- The interests waited for, newest first. -/
  waits : List Interest
  /-- Whether the next call that has to wait is interrupted. -/
  interrupts : Bool
  /-- What the peer writes when others run. -/
  late : List UInt8
  reschedules : Nat

/-- Which descriptor a scripted transfer uses. -/
inductive StageTarget where
  /-- The transfer's own end. -/
  | own
  /-- The peer's end, which is open for the other direction. -/
  | peer
  | number (n : Int)

namespace Stage

/-- The peer writes, if the transfer reads and the peer's end is open. -/
def feed (t : Transfer) (bs : List UInt8) (s : Stage) : Stage :=
  match t with
  | .read => if s.pipe.isOpen .writer then { s with pipe := s.pipe.put bs } else s
  | .write => s

/-- The peer reads, if the transfer writes and the peer's end is open. -/
def drain (t : Transfer) (n : Nat) (s : Stage) : Stage :=
  match t with
  | .read => s
  | .write =>
    if s.pipe.isOpen .reader then
      match s.pipe.read n with
      | some (_, pipe) => { s with pipe }
      | none => s
    else s

/-- The peer closes its end. -/
def closePeer (t : Transfer) (s : Stage) : Stage :=
  { s with pipe := s.pipe.close (match t with
    | .read => .writer
    | .write => .reader) }

/-- The peer plays one step. -/
def play (t : Transfer) (p : PeerStep) (s : Stage) : Stage :=
  let fed := match p.feed with
    | some bs => s.feed t bs
    | none => s
  let drained := match p.drain with
    | some n => fed.drain t n
    | none => fed
  if p.close then drained.closePeer t else drained

/-- Waits by playing the next step of the script. -/
def wait (t : Transfer) (i : Interest) (s : Stage) : Except IoError Unit × Stage :=
  let asked := { s with waits := i :: s.waits }
  match s.script with
  | [] => (.error (.system .timedOut), asked)
  | p :: rest =>
    let outcome := match p.error with
      | some e => .error (.system e)
      | none => .ok ()
    (outcome, { asked with script := rest }.play t p)

/-- The outcome of a call that has to wait: an interruption if one is due, else a refusal. -/
def blocked {α : Type} (s : Stage) : Except Errno α × Stage :=
  if s.interrupts then (.error .interrupted, { s with interrupts := false })
  else (.error .again, s)

/-- Reads at most `n` bytes. -/
def read (n : Nat) (s : Stage) : Except Errno (List UInt8) × Stage :=
  match s.pipe.read n with
  | some (bs, pipe) => (.ok bs, { s with pipe })
  | none => s.blocked

/-- Writes as much as there is room for. -/
def write (bs : List UInt8) (s : Stage) : Except Errno Nat × Stage :=
  match s.pipe.write bs with
  | .error e => (.error e, s)
  | .ok (left, pipe) =>
    if left.length = bs.length && !bs.isEmpty then s.blocked
    else (.ok (bs.length - left.length), { s with pipe })

/-- The channel of a transfer. Only the transfer's own end admits its system call. -/
def channel {α : Type} (t : Transfer) (target : StageTarget)
    (call : Stage → Except Errno α × Stage) : Transfer.Channel Stage α where
  wait := wait t
  attempt s := match target with
    | .own => call s
    | _ => (.error .badDescriptor, s)
  reschedule s := { s with reschedules := s.reschedules + 1 }.feed t s.late

/-- The number of the descriptor; the numbers of open ends are not negative and otherwise free. -/
def StageTarget.fd : StageTarget → Int
  | .number n => n
  | _ => 0

/-- Plays a transfer. Each round plays a step of the script, so there is at most one more. -/
def run {α : Type} (t : Transfer) (target : StageTarget) (call : Stage → Except Errno α × Stage)
    (s : Stage) : Except IoError α × Stage :=
  match Transfer.run (channel t target call) t (StageTarget.fd target) (s.script.length + 1) s with
  | some r => r
  | none => (.error (.system .timedOut), s)

end Stage

end Baton
