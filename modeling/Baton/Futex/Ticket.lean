import Baton.Ident
import Baton.Store

/-!
# Ticket locks

A thread takes the next ticket and spins until that ticket is served; a release serves the next
one. A section that panics releases the lock too, while the thread unwinds out of it. Both counters
are words of 32 bits and wrap around. Each atomic operation is one step, and an action that is not
possible changes nothing. A thread that has asked for the lock does not ask again before it has
released it, since it would wait for itself.
-/

namespace Baton

/-- Where a thread is. -/
inductive TicketPhase where
  | away
  /-- Spins until its ticket is served. -/
  | waiting (ticket : UInt32)
  | holding
  /-- Unwinds out of the section; about to release the lock. -/
  | unwinding
  deriving DecidableEq

instance : Inhabited TicketPhase := ⟨.away⟩

/-- Whether the guard of the lock exists and is the thread's. -/
def TicketPhase.hasGuard : TicketPhase → Bool
  | holding | unwinding => true
  | _ => false

/-- A ticket lock with the threads that use it. -/
structure TicketLock where
  /-- The ticket of the next thread that asks. -/
  next : UInt32
  serving : UInt32
  phases : Store ThreadId TicketPhase

/-- One atomic operation on a ticket lock, or a panic of the section behind it. -/
inductive TicketAction where
  /-- Takes a ticket. -/
  | take (t : ThreadId)
  /-- Looks at the ticket that is served. -/
  | look (t : ThreadId)
  /-- The section of the holder panics. -/
  | panic (t : ThreadId)
  /-- Drops the guard, which serves the next ticket. -/
  | release (t : ThreadId)

namespace TicketLock

/-- A lock that nobody has used. -/
def fresh : TicketLock := ⟨0, 0, .empty⟩

/-- Where a thread is. -/
def phase (l : TicketLock) (t : ThreadId) : TicketPhase := l.phases.get t

/-- Carries out an action. -/
def step (l : TicketLock) : TicketAction → TicketLock
  | .take t =>
    if l.phase t = .away then
      { l with next := l.next + 1, phases := l.phases.set t (.waiting l.next) }
    else l
  | .look t =>
    match l.phase t with
    | .waiting ticket =>
      if l.serving = ticket then { l with phases := l.phases.set t .holding } else l
    | _ => l
  | .panic t =>
    if l.phase t = .holding then { l with phases := l.phases.set t .unwinding } else l
  | .release t =>
    if (l.phase t).hasGuard then
      { l with serving := l.serving + 1, phases := l.phases.set t .away }
    else l

/-- Carries out a sequence of actions. -/
def run (l : TicketLock) (actions : List TicketAction) : TicketLock := actions.foldl step l

end TicketLock

/-- A value behind a ticket lock. -/
structure Guarded (α : Type) where
  lock : TicketLock
  value : α

namespace Guarded

variable {α β : Type}

/-- A value behind a fresh lock. -/
def ofValue (value : α) : Guarded α := ⟨.fresh, value⟩

/-- Runs `f` on the value with the lock held by `t`. If the lock cannot be had at once, nothing
happens. -/
def withLock (t : ThreadId) (f : α → β × α) (g : Guarded α) : Option β × Guarded α :=
  let asked := g.lock.run [.take t, .look t]
  if asked.phase t = .holding then
    let (b, value) := f g.value
    (some b, ⟨asked.step (.release t), value⟩)
  else (none, g)

end Guarded

end Baton
