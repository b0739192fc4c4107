/-!
# The status of a thread

A live thread runs, waits for its turn, or is stopped. Beside that one bit remembers a wakeup that
found the thread not stopped: the next stop consumes the bit and does not suspend. Several such
wakeups are one.
-/

namespace Baton

/-- What a live thread is doing. -/
inductive RunState where
  | running | runnable | stopped
  deriving DecidableEq

/-- The state of a thread, and whether a wakeup is remembered. -/
structure Status where
  state : RunState
  notified : Bool
  deriving DecidableEq

namespace Status

instance : Inhabited Status := ⟨⟨.runnable, false⟩⟩

/-- Whether a wakeup makes the thread runnable. -/
def isStopped (s : Status) : Bool := s.state == .stopped

/-- The status after a wakeup. -/
def wake (s : Status) : Status :=
  if s.isStopped then ⟨.runnable, false⟩ else { s with notified := true }

/-- The status after a request to stop. -/
def stop (s : Status) : Status :=
  if s.notified then { s with notified := false } else ⟨.stopped, false⟩

/-- The status with another state; a remembered wakeup stays. -/
def enter (state : RunState) (s : Status) : Status := { s with state }

@[simp] theorem state_enter (state : RunState) (s : Status) : (s.enter state).state = state := rfl

@[simp] theorem notified_enter (state : RunState) (s : Status) :
    (s.enter state).notified = s.notified := rfl

theorem notified_wake (s : Status) : s.wake.notified = !s.isStopped := by
  unfold wake
  split <;> simp_all

@[simp] theorem notified_stop (s : Status) : s.stop.notified = false := by
  unfold stop
  split <;> rfl

theorem isStopped_wake (s : Status) : s.wake.isStopped = false := by
  unfold wake
  split
  · rfl
  · rename_i h
    simpa [isStopped] using h

theorem isStopped_stop {s : Status} (h : s.isStopped = false) :
    s.stop.isStopped = !s.notified := by
  unfold stop
  split <;> simp_all [isStopped]

end Status

end Baton
