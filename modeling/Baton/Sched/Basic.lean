import Baton.Io.Pipe
import Baton.Log.Notice
import Baton.Sched.Status
import Baton.Sched.Wait
import Baton.Store

/-!
# The scheduler

A scheduler hosts logical threads of which one runs at a time. The running thread has the turn and
gives it away only when it stops, yields or finishes. The giver then looks for the next thread: it
polls the descriptors that are waited for, and takes the oldest entry of the ready queue that names
a runnable thread. If there is none it polls again and waits; with nothing to wait for it is stuck
until a wakeup comes from outside. Such a wait has a deadline, and the giver panics if that cannot
be formed.

The turn is handed to another thread by a baton, which lies in the slot of the next thread until
that thread takes it up; a giver that finds itself to be the next goes on at once.

Threads are suspended and revived by `stop` and `wakeup` alone.
-/

namespace Baton

/-- What the scheduler knows of a live thread. -/
structure Slot where
  status : Status
  /-- Whether the baton lies ready for the thread. -/
  baton : Bool
  /-- The threads that wait for this one to finish. -/
  joiners : List ThreadId
  /-- The outcome of the thread's wait for descriptors, until the thread fetches it. -/
  delivery : Option (Delivery Descriptor)

/-- Who has the turn. -/
inductive Turn where
  /-- A thread runs. -/
  | held (id : ThreadId)
  /-- The giver is about to poll. -/
  | seeking (giver : ThreadId)
  /-- The giver has polled and looks into the ready queue. -/
  | choosing (giver : ThreadId)
  /-- The ready queue was empty; the giver is about to wait. -/
  | idle (giver : ThreadId)
  /-- There is nothing to wait for. -/
  | stuck (giver : ThreadId)
  /-- The baton has been handed over and not yet been taken up. -/
  | passing
  /-- All threads have finished. -/
  | over
  deriving DecidableEq

/-- The state of a scheduler. -/
structure Sched where
  slots : Store ThreadId Slot
  /-- The threads that became runnable, oldest entry first. -/
  ready : List ThreadId
  /-- The threads that have entered the ready queue so far, newest first. -/
  entered : List ThreadId
  /-- The threads that have been given the turn out of the ready queue so far, newest first. -/
  dispatched : List ThreadId
  waiters : List (Waiter Descriptor)
  /-- How many threads have not finished. -/
  live : Nat
  ids : IdAllocator
  main : ThreadId
  turn : Turn
  /-- Whether it has been reported that the scheduler is stuck. -/
  warned : Bool
  /-- The longest single idle poll. -/
  idlePoll : Span
  clock : Instant
  /-- What has been reported so far, newest first. -/
  journal : List Notice

namespace Sched

/-- A scheduler at the start of a run, with its main thread running. -/
def start (idlePoll : Span) : Sched :=
  let (main, ids) := (IdAllocator.startingAt .first).allocate
  { slots := Store.empty.set main ⟨⟨.running, false⟩, false, [], none⟩
    ready := []
    entered := []
    dispatched := []
    waiters := []
    live := 1
    ids
    main
    turn := .held main
    warned := false
    idlePoll
    clock := .start
    journal := [.started main] }

/-- Reports something. -/
def note (n : Notice) (s : Sched) : Sched := { s with journal := n :: s.journal }

/-- Changes what is known of a live thread. -/
def onSlot (id : ThreadId) (f : Slot → Slot) (s : Sched) : Sched :=
  { s with slots := s.slots.modify id f }

/-- Changes the status of a live thread. -/
def onStatus (id : ThreadId) (f : Status → Status) (s : Sched) : Sched :=
  s.onSlot id fun slot => { slot with status := f slot.status }

/-- Adds a thread to the end of the ready queue. -/
def enqueue (id : ThreadId) (s : Sched) : Sched :=
  { s with ready := s.ready ++ [id], entered := id :: s.entered }

/-- Whether a thread is live. -/
def isLive (id : ThreadId) (s : Sched) : Bool := (s.slots.get? id).isSome

/-- Whether a thread is live and stopped. -/
def isStopped (id : ThreadId) (s : Sched) : Bool :=
  (s.slots.get? id).any fun slot => slot.status.isStopped

/-- Makes a stopped thread runnable; any other live thread remembers the wakeup. -/
def wakeup (id : ThreadId) (s : Sched) : Sched :=
  let woken := s.onStatus id Status.wake
  if s.isStopped id then (woken.note (.woken id)).enqueue id else woken

/-- Wakes threads one after the other. -/
def wakeAll (ids : List ThreadId) (s : Sched) : Sched := ids.foldl (fun s id => s.wakeup id) s

/-- Suspends the running thread, unless a wakeup is remembered. -/
def stop (me : ThreadId) (s : Sched) : Sched :=
  let stopped := s.onStatus me Status.stop
  if stopped.isStopped me then { stopped with turn := .seeking me } else stopped

/-- Puts the running thread at the end of the ready queue and gives the turn away. -/
def yieldNow (me : ThreadId) (s : Sched) : Sched :=
  { (s.onStatus me (Status.enter .runnable)).enqueue me with turn := .seeking me }

/-- Starts a thread: it gets the next identity and a place in the ready queue. The operating system
is taken to be able to start it. What happens otherwise (an error line, the removal of the thread,
and the error that resources are exhausted) is left out. -/
def spawn (s : Sched) : ThreadId × Sched :=
  let (id, ids) := s.ids.allocate
  let added := { s with
    ids
    slots := s.slots.set id ⟨⟨.runnable, false⟩, false, [], none⟩
    live := s.live + 1 }
  (id, (added.note (.spawned id)).enqueue id)

/-- Takes a thread out of the scheduler. -/
def retire (me : ThreadId) (turn : Turn) (s : Sched) : Sched :=
  { s with slots := s.slots.erase me, live := s.live - 1, turn }

/-- The threads that wait for a thread to finish. -/
def joinersOf (id : ThreadId) (s : Sched) : List ThreadId :=
  ((s.slots.get? id).map Slot.joiners).getD []

/-- Takes a thread that is not the main one out of the scheduler and gives the turn away. The
threads that wait for it are woken, and then the main thread if it is the only one left. -/
def finish (me : ThreadId) (s : Sched) : Sched :=
  (s.retire me (.seeking me)).wakeAll
    (s.joinersOf me ++ if s.live = 2 then [s.main] else [])

/-- Ends the run: `me`, the main thread, leaves as the last one. -/
def conclude (me : ThreadId) (s : Sched) : Sched := (s.retire me .over).note .finished

/-- Lets `waiter` be woken when `target` finishes. -/
def addJoiner (target waiter : ThreadId) (s : Sched) : Sched :=
  s.onSlot target fun slot => { slot with joiners := slot.joiners ++ [waiter] }

/-- Registers a wait for descriptors and forgets an earlier outcome. -/
def await (w : Waiter Descriptor) (s : Sched) : Sched :=
  let fresh := s.onSlot w.id fun slot => { slot with delivery := none }
  { fresh with waiters := fresh.waiters ++ [w] }

/-- The outcome of a wait for descriptors, if there is one. -/
def delivery? (id : ThreadId) (s : Sched) : Option (Delivery Descriptor) :=
  (s.slots.get? id).bind Slot.delivery

/-- Forgets the outcome of a wait for descriptors. -/
def takeDelivery (id : ThreadId) (s : Sched) : Sched :=
  s.onSlot id fun slot => { slot with delivery := none }

/-- Lets time pass. -/
def elapse (d : Span) (s : Sched) : Sched := { s with clock := s.clock.after d }

/-- The time that one poll takes when it does not wait. -/
def pollCost : Span := ⟨1000⟩

/-- How long a poll lasts: it waits whole milliseconds unless something is ready at once. -/
def pollLength (outcome : Delivery Descriptor) (patience : Span) : Span :=
  match outcome with
  | .error _ => pollCost
  | .ok ps =>
    if ps.any PollEntry.isReady then pollCost
    else ⟨pollCost.nanos + (Span.ofMillis patience.ceilMillis).nanos⟩

/-- Leaves outcomes with the threads that they are for. -/
def tell (done : List (ThreadId × Delivery Descriptor)) (s : Sched) : Sched :=
  done.foldl (fun s d => s.onSlot d.1 fun slot => { slot with delivery := some d.2 }) s

/-- Hands out the outcome of a poll: each waiter that is done gets its own, and then all of them are
woken in the order in which they registered. -/
def deliver (outcome : Delivery Descriptor) (s : Sched) : Sched :=
  let (done, pending) := Waiter.settle s.clock outcome s.waiters
  let told := tell done { s with waiters := pending }
  told.wakeAll (done.map (·.1))

/-- Whether handing out the outcome of a poll wakes anybody. -/
def hasNews (outcome : Delivery Descriptor) (s : Sched) : Bool :=
  !(Waiter.settle s.clock outcome s.waiters).1.isEmpty

/-- Polls for all waiters at once, and waits at most `longest` for something to be ready. The flag
tells whether anybody was woken. -/
def serveWaiters (system : PollSystem Descriptor) (longest : Span) (s : Sched) :
    Bool × Sched :=
  if s.waiters.isEmpty then (false, s)
  else
    let patience := Waiter.patience s.clock longest s.waiters
    let outcome := Waiter.pollAll system s.waiters
    let later := s.elapse (pollLength outcome patience)
    (later.hasNews outcome, later.deliver outcome)

/-- Whether the deadline of such a poll can be formed. Without waiters there is no poll. -/
def canPoll (longest : Span) (s : Sched) : Bool :=
  s.waiters.isEmpty || (s.clock.after? (Waiter.patience s.clock longest s.waiters)).isSome

/-- The poll for all waiters; `none` if its deadline cannot be formed, which is a panic. -/
def pollWaiters (system : PollSystem Descriptor) (longest : Span) (s : Sched) :
    Option (Bool × Sched) :=
  if s.canPoll longest then some (s.serveWaiters system longest) else none

/-- Gives the turn to a runnable thread. A giver that gets it back just goes on; for another thread
the baton is laid ready. -/
def dispatch (giver next : ThreadId) (s : Sched) : Sched :=
  let running := { s.onStatus next (Status.enter .running) with dispatched := next :: s.dispatched }
  if giver = next then { running with turn := .held next }
  else { running.onSlot next fun slot => { slot with baton := true } with turn := .passing }.note
    (.switched giver next)

/-- Whether the baton lies ready for a thread. -/
def hasBaton (id : ThreadId) (s : Sched) : Bool := (s.slots.get? id).any Slot.baton

/-- A thread for which the baton lies ready takes it up and runs. -/
def takeUp (s : Sched) : Option Sched :=
  (s.slots.keys.find? fun id => s.hasBaton id).map fun id =>
    { s.onSlot id fun slot => { slot with baton := false } with turn := .held id }

/-- Whether a thread is live and runnable. -/
def isRunnable (id : ThreadId) (s : Sched) : Bool :=
  (s.slots.get? id).any fun slot => slot.status.state == .runnable

/-- Takes the oldest entry off the ready queue. -/
def choose (giver : ThreadId) (s : Sched) : Sched :=
  match s.ready with
  | [] => { s with turn := .idle giver }
  | id :: rest =>
    let taken := { s with ready := rest }
    if taken.isRunnable id then taken.dispatch giver id else taken.note (.stale id)

/-- Goes on after an idle poll. With nothing to wait for the giver is stuck, which is reported
once. -/
def settleIdle (giver : ThreadId) (woken : Bool) (s : Sched) : Sched :=
  if woken || !s.waiters.isEmpty then { s with turn := .seeking giver }
  else
    let warned := if s.warned then s else { s.note .stuck with warned := true }
    { warned with turn := .stuck giver }

/-- Waits for descriptors; `none` if the poll panics. -/
def rest (system : PollSystem Descriptor) (giver : ThreadId) (s : Sched) : Option Sched :=
  (s.pollWaiters system s.idlePoll).map fun (woken, polled) => polled.settleIdle giver woken

/-- Whether the deadline of a wait with nothing to wait for can be formed. -/
def canIdle (s : Sched) : Bool := (s.clock.after? s.idlePoll).isSome

/-- One step of the search for the next thread; `none` while a thread runs, when the run is over,
when the giver is stuck with an empty ready queue, and when the giver panics since the deadline of
its wait cannot be formed. -/
def search (system : PollSystem Descriptor) (s : Sched) : Option Sched :=
  match s.turn with
  | .held _ => none
  | .seeking giver => (s.pollWaiters system .zero).map fun (_, polled) =>
      { polled with turn := .choosing giver }
  | .choosing giver => some (s.choose giver)
  | .idle giver => s.rest system giver
  | .stuck giver =>
    if s.ready.isEmpty || !s.canIdle then none else some { s with turn := .seeking giver }
  | .passing => s.takeUp
  | .over => none

/-- What a poll leaves that panics: the waits for descriptors have been taken up for the poll and
are lost, and the giver has the turn, with the status that it had when it gave the turn away. -/
def losePoll (giver : ThreadId) (s : Sched) : Sched := { s with waiters := [], turn := .held giver }

/-- The giver that panics since the deadline of its wait cannot be formed, if it does, and what that
leaves. -/
def overflow? (s : Sched) : Option (ThreadId × Sched) :=
  match s.turn with
  | .seeking giver => if s.canPoll .zero then none else some (giver, s.losePoll giver)
  | .idle giver => if s.canPoll s.idlePoll then none else some (giver, s.losePoll giver)
  | .stuck giver => if s.canIdle then none else some (giver, { s with turn := .held giver })
  | _ => none

end Sched

end Baton
