import Baton.Program.Machine

/-!
# Threads on a machine

Threads are started, joined and ended here. The outcome of a thread is kept until someone fetches it
with the thread's handle.
-/

namespace Baton

namespace Machine

/-- Starts a thread, which the operating system is taken to be able to do. -/
def spawn (me : ThreadId) (code : Nat) (m : Machine) : Machine :=
  let (id, sched) := m.sched.spawn
  let stack := (m.code.getD code []).map Task.instr ++ [.exit]
  { m with
    sched
    threads := m.threads.set id ⟨stack, .null, 0, .fresh⟩
    handles := m.handles ++ [id] }.answer me (.thread id)

/-- Takes the handle of a thread and waits for it. -/
def join (me id : ThreadId) (m : Machine) : Machine :=
  if id ∈ m.handles then
    { m with handles := m.handles.erase id }.push me [.awaitThread id]
  else m.answer me .noHandle

/-- Waits until a thread has finished, and answers how it ended. -/
def awaitThread (me id : ThreadId) (m : Machine) : Machine :=
  match m.outcomes.get? id with
  | some o => m.answer me (.joined o)
  | none => (m.onSched (Sched.addJoiner id me)).push me [.suspend, .awaitThread id]

/-- Answers whether a thread has finished. -/
def peek (me id : ThreadId) (m : Machine) : Machine :=
  m.answer me
    (if id ∈ m.handles then .bool (m.outcomes.get? id).isSome else .noHandle)

/-- Takes the handle of a thread and joins it from a thread of the operating system, which cannot
wait. -/
def joinOutside (me id : ThreadId) (m : Machine) : Machine :=
  if id ∈ m.handles then
    { m with handles := m.handles.erase id }.answer me
      (match m.outcomes.get? id with
        | some o => .joined o
        | none => .joinPanicked
            "JoinHandle::join on an unfinished thread outside the cooperative scheduler")
  else m.answer me .noHandle

/-- Wakes a thread and answers whether it is live. -/
def wake (me id : ThreadId) (m : Machine) : Machine :=
  (m.answer me (.bool (m.sched.isLive id))).onSched (Sched.wakeup id)

/-- Stops while a variable has another value, and answers how often. -/
def stopUntil (me : ThreadId) (v : Nat) (x : Int) (count : Nat) (m : Machine) : Machine :=
  if m.memory.var v = x then m.answer me (.int count)
  else match m.host with
    | .coop => m.push me [.suspend, .stopUntil v x (count + 1)]
    | _ => m.answer me (.fault .notInScheduler)

/-- Ends a thread. The main thread stays until it is the last one. -/
def finish (me : ThreadId) (o : Outcome) (m : Machine) : Machine :=
  if me = m.sched.main then { m with mainOutcome := some o }.push me [.drain]
  else { m with outcomes := m.outcomes.set me o }.onSched (Sched.finish me)

/-- Ends a thread whose code is done. -/
def exit (me : ThreadId) (m : Machine) : Machine :=
  m.finish me (.finished (m.threads.get me).produced)

/-- Ends a thread that panicked. -/
def abort (me : ThreadId) (text : String) (m : Machine) : Machine :=
  (if me = m.sched.main then m else m.note (.panicked me)).finish me (.panicked text)

/-- Waits for the other threads and ends the run. -/
def drain (me : ThreadId) (m : Machine) : Machine :=
  if 1 < m.sched.live then m.push me [.suspend, .drain] else m.onSched (Sched.conclude me)

end Machine

end Baton
