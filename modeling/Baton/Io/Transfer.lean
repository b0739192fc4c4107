import Baton.Io.Errno
import Baton.Io.Interest

/-!
# Transfers that give way

A read or write first waits until its descriptor is ready, so that other threads run meanwhile,
and then makes one system call. An interrupted call lets the others run once and starts over; a
call that would have to wait starts over; every other outcome ends the transfer.
-/

namespace Baton

/-- The direction of a transfer. -/
inductive Transfer where
  | read | write
  deriving DecidableEq

namespace Transfer

/-- What the descriptor has to be ready for. -/
def interest : Transfer → Interest
  | read => .readable
  | write => .writable

/-- The name of the system call. -/
def name : Transfer → String
  | read => "read"
  | write => "write"

/-- What follows a system call. -/
inductive Next (α : Type) where
  | done (r : Except Errno α)
  /-- Start over; `interrupted` tells whether the other threads run first. -/
  | again (interrupted : Bool)

/-- What follows from the outcome of a system call. -/
def next {α : Type} : Except Errno α → Next α
  | .ok n => .done (.ok n)
  | .error e =>
    if e = .interrupted then .again true
    else if e = .again then .again false
    else .done (.error e)

/-- What a transfer calls, with the state `σ` of its surroundings. -/
structure Channel (σ α : Type) where
  /-- Waits for readiness. -/
  wait : Interest → σ → Except IoError Unit × σ
  /-- Makes the system call. -/
  attempt : σ → Except Errno α × σ
  /-- Lets other threads run. -/
  reschedule : σ → σ

/-- The rounds of a transfer, at most `fuel` of them. -/
def rounds {σ α : Type} (ch : Channel σ α) (t : Transfer) :
    Nat → σ → Option (Except IoError α × σ)
  | 0, _ => none
  | fuel + 1, s =>
    match ch.wait t.interest s with
    | (.error e, s) => some (.error e, s)
    | (.ok (), s) =>
      let (r, s) := ch.attempt s
      match next r with
      | .done (.ok n) => some (.ok n, s)
      | .done (.error e) => some (.error (.system e), s)
      | .again true => rounds ch t fuel (ch.reschedule s)
      | .again false => rounds ch t fuel s

/-- A transfer on a descriptor. A negative one is refused before anything is called. -/
def run {σ α : Type} (ch : Channel σ α) (t : Transfer) (fd : Int) (fuel : Nat) (s : σ) :
    Option (Except IoError α × σ) :=
  if fd < 0 then some (.error (.system .badDescriptor), s) else rounds ch t fuel s

end Transfer

end Baton
