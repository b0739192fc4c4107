import Baton.Program.Mutexes

/-!
# Reader/writer locks on a machine

Each critical section runs with the inner mutex held: a task before it takes the mutex, and a task
after it checks the state and releases the mutex. A queued thread sleeps on the rendezvous of its
kind and looks at the state whenever it wakes up.
-/

namespace Baton

namespace Machine

/-- Ends a critical section: the state is checked, and the inner mutex released. -/
def closeSection (me : ThreadId) (l : LockName) (m : Machine) : Machine :=
  match (m.locks.get l).violation? with
  | none => m.push me [.release (.inner l)]
  | some text => m.panic me text

/-- The first section of a read request. -/
def requestRead (me : ThreadId) (l : LockName) (m : Machine) : Machine :=
  let (verdict, s) := (m.locks.get l).requestRead me
  let m := m.setLock l s
  match verdict with
  | .granted => (m.answer me .null).push me [.closeSection l]
  | .queued => ((m.note (.readerQueued me s.writer)).answer me .null).push me
      [.sleepOn (.readers l) (.inner l), .recheckRead l]
  | .refused => ((m.note (.readerRefused me)).answer me (.fault .wouldDeadlock)).push me
      [.closeSection l]

/-- What a queued reader does when it wakes up. -/
def recheckRead (me : ThreadId) (l : LockName) (m : Machine) : Machine :=
  let (granted, s) := (m.locks.get l).recheckRead me
  (m.setLock l s).push me
    (if granted then [.closeSection l] else [.sleepOn (.readers l) (.inner l), .recheckRead l])

/-- The first section of a write request. -/
def requestWrite (me : ThreadId) (l : LockName) (m : Machine) : Machine :=
  let (verdict, s) := (m.locks.get l).requestWrite me
  let m := m.setLock l s
  match verdict with
  | .granted => (m.answer me .null).push me [.closeSection l]
  | .queued => ((m.note (.writerQueued me)).answer me .null).push me
      [.sleepOn (.writers l) (.inner l), .recheckWrite l]
  | .refused => ((m.note (.writerRefused me)).answer me (.fault .wouldDeadlock)).push me
      [.closeSection l]

/-- What a queued writer does when it wakes up. -/
def recheckWrite (me : ThreadId) (l : LockName) (m : Machine) : Machine :=
  let (granted, s) := (m.locks.get l).recheckWrite me
  (m.setLock l s).push me
    (if granted then [.closeSection l] else [.sleepOn (.writers l) (.inner l), .recheckWrite l])

/-- Takes a read hold if that needs no waiting. -/
def tryRead (me : ThreadId) (l : LockName) (m : Machine) : Machine :=
  let (taken, s) := (m.locks.get l).tryRead me
  ((m.setLock l s).answer me (.bool taken)).push me [.closeSection l]

/-- Takes the write hold if that needs no waiting. -/
def tryWrite (me : ThreadId) (l : LockName) (m : Machine) : Machine :=
  let (taken, s) := (m.locks.get l).tryWrite me
  ((m.setLock l s).answer me (.bool taken)).push me [.closeSection l]

/-- Wakes those that a release may have granted the lock to. -/
def wakeGranted (l : LockName) (h : Handoff) (m : Machine) : Machine :=
  match h with
  | .nobody => m
  | .writer next => (m.note (.writeHanded next)).broadcast (.writers l)
  | .readers count => (m.note (.readersWoken count)).broadcast (.readers l)

/-- Gives up a read hold. -/
def releaseRead (me : ThreadId) (l : LockName) (m : Machine) : Machine :=
  match (m.locks.get l).releaseRead me with
  | some (h, s) => (((m.setLock l s).wakeGranted l h).answer me .null).push me [.closeSection l]
  | none => ((m.note (.readNotHeld me)).answer me (.fault .notHeld)).push me [.closeSection l]

/-- Gives up the write hold. -/
def releaseWrite (me : ThreadId) (l : LockName) (m : Machine) : Machine :=
  match (m.locks.get l).releaseWrite me with
  | some (h, s) => (((m.setLock l s).wakeGranted l h).answer me .null).push me [.closeSection l]
  | none =>
    ((m.note (.writeNotHeld me (m.locks.get l).writer)).answer me (.fault .notHeld)).push me
      [.closeSection l]

/-- Ends this section and gives up the hold of the caller in the next one. -/
def releaseHeld (me : ThreadId) (l : LockName) (m : Machine) : Machine :=
  let isWriter := (m.locks.get l).writer = some me
  m.push me (.closeSection l ::
    Task.section l (if isWriter then .releaseWrite l else .releaseRead l))

end Machine

end Baton
