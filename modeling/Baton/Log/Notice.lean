import Baton.Fault
import Baton.Ident
import Baton.Log.Level

/-!
# Notices

What the scheduler and its primitives report while they run. A notice is kept as an event of the
domain; its level and its text are functions of it.
-/

namespace Baton

/-- Something that happened and is worth a line in the log. -/
inductive Notice where
  /-- A scheduler starts with its main thread. -/
  | started (main : ThreadId)
  /-- All threads of a scheduler have finished. -/
  | finished
  | spawned (id : ThreadId)
  | panicked (id : ThreadId)
  /-- A stopped thread becomes runnable. -/
  | woken (id : ThreadId)
  /-- The turn goes from one thread to another. -/
  | switched (giver taker : ThreadId)
  /-- The ready queue names a thread that is not runnable. -/
  | stale (id : ThreadId)
  /-- No thread is runnable and no descriptor is waited for. -/
  | stuck
  | mutexHanded (giver taker : ThreadId)
  | mutexNotOwned (me : ThreadId) (owner : Option ThreadId)
  | readerRefused (me : ThreadId)
  | readerQueued (me : ThreadId) (writer : Option ThreadId)
  | writerRefused (me : ThreadId)
  | writerQueued (me : ThreadId)
  | readNotHeld (me : ThreadId)
  | writeNotHeld (me : ThreadId) (writer : Option ThreadId)
  | writeHanded (taker : ThreadId)
  | readersWoken (count : Nat)
  /-- A guard could not release its hold. -/
  | guardStuck (exclusive : Bool) (cause : Fault)
  /-- A rendezvous was given the guard of another mutex. -/
  | wrongGuard
  /-- A line of the running program's own. -/
  | said (level : LogLevel) (text : String)

namespace Notice

/-- How grave the notice is. -/
def level : Notice → LogLevel
  | mutexNotOwned .. | readerRefused .. | writerRefused .. | readNotHeld .. | writeNotHeld ..
  | guardStuck .. | wrongGuard => .error
  | stuck => .warn
  | started .. | finished | panicked .. => .debug
  | said l _ => l
  | _ => .trace

/-- The text of the notice. -/
def text : Notice → String
  | started main => "coop: scheduler started, main thread " ++ main.text
  | finished => "coop: scheduler finished"
  | spawned id => "coop: spawned " ++ id.text
  | panicked id => "coop: thread " ++ id.text ++ " panicked"
  | woken id => "coop: wake " ++ id.text
  | switched giver taker => "coop: switch " ++ giver.text ++ " -> " ++ taker.text
  | stale id => "coop: dropping stale ready entry " ++ id.text
  | stuck => "coop: no runnable thread and no descriptor to wait on; " ++
      "waiting for an external wakeup (possible deadlock)"
  | mutexHanded giver taker => "coop: mutex handed " ++ giver.text ++ " -> " ++ taker.text
  | mutexNotOwned me owner => "coop: mutex unlocked by " ++ me.text ++ " but held by " ++
      ThreadId.describeOption owner
  | readerRefused me => "rwlock: read request from write holder " ++ me.text
  | readerQueued me writer => "rwlock: reader " ++ me.text ++ " queued behind writer " ++
      ThreadId.describeOption writer
  | writerRefused me => "rwlock: write request from current holder " ++ me.text
  | writerQueued me => "rwlock: writer " ++ me.text ++ " queued"
  | readNotHeld me => "rwlock: read_unlock by " ++ me.text ++ " which holds no read lock"
  | writeNotHeld me writer => "rwlock: write_unlock by " ++ me.text ++ " but writer is " ++
      ThreadId.describeOption writer
  | writeHanded taker => "rwlock: handing write hold to " ++ taker.text
  | readersWoken count => "rwlock: waking batch of " ++ toString count ++ " readers"
  | guardStuck exclusive cause => "rwlock: " ++ (if exclusive then "write" else "read") ++
      " guard release failed: " ++ cause.message
  | wrongGuard => "rendez: sleep with a guard of a different mutex"
  | said _ s => s

/-- The lines that the notice adds to a log of the given level. -/
def lines (current : LogLevel) (n : Notice) : List String :=
  if current.admits n.level then (n.level.line n.text).splitOn "\n" else []

end Notice

end Baton
