import Baton.Mutex

/-!
# Reader/writer lock: the state and its critical sections

A lock has at most one writer, or any number of read holds, and two queues of blocked requests in
order of arrival. Each function here is one critical section. A release that leaves no holder hands
the lock over at once: to the oldest queued writer, or else to all queued readers together. A
thread that wakes up therefore only looks whether it was granted.

New readers join the present ones even while a writer is queued.
-/

namespace Baton

/-- The state of a reader/writer lock. -/
structure RwState where
  writer : Option ThreadId
  /-- The read holds; a thread with several of them occurs as often. -/
  readers : List ThreadId
  /-- The blocked read requests, oldest first. -/
  readQueue : List ThreadId
  /-- The blocked write requests, oldest first. -/
  writeQueue : List ThreadId
  deriving DecidableEq

/-- Who a release hands the lock to. -/
inductive Handoff where
  | nobody
  | writer (next : ThreadId)
  | readers (count : Nat)
  deriving DecidableEq

namespace RwState

/-- A lock that nobody holds or waits for. -/
def free : RwState := ⟨none, [], [], []⟩

instance : Inhabited RwState := ⟨free⟩

/-- Whether nobody holds the lock. -/
def isFree (s : RwState) : Bool := s.writer.isNone && s.readers.isEmpty

/-- Whether no reader holds the lock beside a writer. -/
def isExclusive (s : RwState) : Bool := s.writer.isNone || s.readers.isEmpty

/-- Whether no holder of a read hold is queued. -/
def holdersUnqueued (s : RwState) : Bool :=
  s.readers.all fun r => !s.readQueue.contains r && !s.writeQueue.contains r

/-- Exclusion, and no reader among the queued. -/
def isConsistent (s : RwState) : Bool := s.isExclusive && s.holdersUnqueued

/-- The text of the assertion that the state violates, if it violates one. -/
def violation? (s : RwState) : Option String :=
  if !s.isExclusive then
    some ("rwlock: writer " ++ ThreadId.describeOption s.writer ++ " coexists with readers " ++
      ThreadId.describeList s.readers)
  else
    (s.readers.find? fun r => s.readQueue.contains r || s.writeQueue.contains r).map fun r =>
      "rwlock: reader " ++ r.text ++ " is also queued"

/-- The state as diagnostics show it. -/
def describe (s : RwState) : String :=
  "RwSnapshot \x7b writer: " ++ ThreadId.describeOption s.writer ++
    ", readers: " ++ ThreadId.describeList s.readers ++
    ", queued_readers: " ++ ThreadId.describeList s.readQueue ++
    ", queued_writers: " ++ ThreadId.describeList s.writeQueue ++ " \x7d"

/-- Asks for a read hold: refused to the writer, granted if there is no writer, else queued. -/
def requestRead (me : ThreadId) (s : RwState) : Verdict × RwState :=
  if s.writer = some me then (.refused, s)
  else if s.writer = none then (.granted, { s with readers := s.readers ++ [me] })
  else (.queued, { s with readQueue := s.readQueue ++ [me] })

/-- Asks for the write hold: refused to any holder, granted if the lock is free, else queued. -/
def requestWrite (me : ThreadId) (s : RwState) : Verdict × RwState :=
  if s.writer = some me ∨ me ∈ s.readers then (.refused, s)
  else if s.writer = none ∧ s.readers = [] then (.granted, { s with writer := some me })
  else (.queued, { s with writeQueue := s.writeQueue ++ [me] })

/-- A queued reader looks whether it was granted, or can be now. -/
def recheckRead (me : ThreadId) (s : RwState) : Bool × RwState :=
  if me ∉ s.readQueue then (true, s)
  else if s.writer = none then
    (true, { s with readQueue := s.readQueue.erase me, readers := s.readers ++ [me] })
  else (false, s)

/-- A queued writer looks whether it was granted, or can be now. -/
def recheckWrite (me : ThreadId) (s : RwState) : Bool × RwState :=
  if s.writer = some me then (true, s)
  else if s.writer = none ∧ s.readers = [] then
    (true, { s with writeQueue := s.writeQueue.erase me, writer := some me })
  else (false, s)

/-- Takes a read hold if there is no writer. -/
def tryRead (me : ThreadId) (s : RwState) : Bool × RwState :=
  if s.writer = none then (true, { s with readers := s.readers ++ [me] }) else (false, s)

/-- Takes the write hold if the lock is free. -/
def tryWrite (me : ThreadId) (s : RwState) : Bool × RwState :=
  if s.writer = none ∧ s.readers = [] then (true, { s with writer := some me }) else (false, s)

/-- The list without the entry at `i`, whose place the last entry takes. -/
def swapRemove (l : List ThreadId) (i : Nat) : List ThreadId :=
  match l.getLast? with
  | none => []
  | some last => (l.set i last).dropLast

/-- The read holds without the first one of `me`. -/
def withoutReader? (me : ThreadId) (s : RwState) : Option RwState :=
  (s.readers.findIdx? fun r => r == me).map fun i => { s with readers := swapRemove s.readers i }

/-- Hands the lock over after a release. -/
def handoff (s : RwState) : Handoff × RwState :=
  if s.writer ≠ none then (.nobody, s)
  else match s.readers, s.writeQueue with
    | [], next :: rest => (.writer next, { s with writer := some next, writeQueue := rest })
    | _, _ =>
      if s.readQueue = [] then (.nobody, s)
      else (.readers s.readQueue.length,
        { s with readers := s.readers ++ s.readQueue, readQueue := [] })

/-- Gives up one read hold of `me`, if it has any. -/
def releaseRead (me : ThreadId) (s : RwState) : Option (Handoff × RwState) :=
  (s.withoutReader? me).map handoff

/-- Gives up the write hold, if it is `me` that has it. -/
def releaseWrite (me : ThreadId) (s : RwState) : Option (Handoff × RwState) :=
  if s.writer = some me then some (handoff { s with writer := none }) else none

@[simp] theorem isConsistent_free : free.isConsistent = true := rfl

theorem handoff_of_writer {s : RwState} (h : s.writer ≠ none) : s.handoff = (.nobody, s) := by
  simp [handoff, h]

theorem violation?_eq_none_iff {s : RwState} : s.violation? = none ↔ s.isConsistent = true := by
  unfold violation? isConsistent holdersUnqueued
  cases s.isExclusive
  · simp
  · simp [List.find?_eq_none]

end RwState

end Baton
