import Baton.Proofs.RwLock.Sound

/-!
# Reader/writer lock: the history of a session

A session is a sequence of moves of its workers, and a move leaves events: a request was queued, a
hold was taken at once, a queued request was granted, a hold was released. The events are read off
what the critical sections answer.

`Change` lists what one move does to the lock of a sound session, together with its events. What is
said of whole histories follows from it case by case.
-/

namespace Baton

/-- The two kinds of holds. -/
inductive RwSide where
  | read | write
  deriving DecidableEq

/-- Something that happened to a request or a hold of a thread. -/
inductive RwEvent where
  | queued (t : ThreadId) (side : RwSide)
  /-- The thread was given the hold in its own section. -/
  | taken (t : ThreadId) (side : RwSide)
  /-- The thread was given the hold by a release of another one. -/
  | granted (t : ThreadId) (side : RwSide)
  | released (t : ThreadId) (side : RwSide)
  deriving DecidableEq

namespace RwEvent

/-- What becomes of a request. -/
def ofVerdict (t : ThreadId) (side : RwSide) : Verdict → List RwEvent
  | .granted => [taken t side]
  | .queued => [queued t side]
  | .refused => []

/-- What becomes of an attempt. -/
def ofAttempt (t : ThreadId) (side : RwSide) (success : Bool) : List RwEvent :=
  if success then [taken t side] else []

/-- Whom a release in state `s` hands the lock to. -/
def ofHandoff (s : RwState) : Handoff → List RwEvent
  | .nobody => []
  | .writer next => [granted next .write]
  | .readers n => (s.readQueue.take n).map fun t => granted t .read

/-- What becomes of a release in state `s`. -/
def ofRelease (t : ThreadId) (side : RwSide) (s : RwState) :
    Option (Handoff × RwState) → List RwEvent
  | none => []
  | some (h, _) => released t side :: ofHandoff s h

/-- The thread that joined the queue of a side. -/
def queued? (side : RwSide) : RwEvent → Option ThreadId
  | queued t d => if d = side then some t else none
  | _ => none

/-- The thread that was granted its queued request on a side. -/
def granted? (side : RwSide) : RwEvent → Option ThreadId
  | granted t d => if d = side then some t else none
  | _ => none

/-- Whether a thread got a hold. -/
def isAcquisition : RwEvent → Bool
  | taken .. | granted .. => true
  | _ => false

/-- Whether a thread got the write hold. -/
def isWriteAcquisition : RwEvent → Bool
  | taken _ .write | granted _ .write => true
  | _ => false

end RwEvent

/-- A move of a worker. -/
inductive RwMove where
  | call (t : ThreadId) (c : RwCall)
  | snapshot (t : ThreadId)
  | resume (t : ThreadId)

/-- The worker that moves. -/
def RwMove.worker : RwMove → ThreadId
  | call t _ | snapshot t | resume t => t

namespace RwSession

open RwEvent

/-- Carries out a move. -/
def move : RwMove → RwSession → RwSession
  | .call t c => call t c
  | .snapshot t => snapshot t
  | .resume t => resume t

/-- The events of a call. -/
def eventsOfCall (t : ThreadId) (s : RwState) : RwCall → List RwEvent
  | .readLock => ofVerdict t .read (s.requestRead t).1
  | .writeLock => ofVerdict t .write (s.requestWrite t).1
  | .tryReadLock => ofAttempt t .read (s.tryRead t).1
  | .tryWriteLock => ofAttempt t .write (s.tryWrite t).1
  | .readUnlock => ofRelease t .read s (s.releaseRead t)
  | .writeUnlock => ofRelease t .write s (s.releaseWrite t)
  | .unlock => []

/-- The events of a resumption. A sleeper that still stands in its queue and goes on has granted
itself the hold. -/
def eventsOfResume (t : ThreadId) (s : RwState) : RwPhase → List RwEvent
  | .idle => []
  | .reading => if t ∈ s.readQueue then ofAttempt t .read (s.recheckRead t).1 else []
  | .writing => if s.writer = some t then [] else ofAttempt t .write (s.recheckWrite t).1
  | .unlocking true => ofRelease t .write s (s.releaseWrite t)
  | .unlocking false => ofRelease t .read s (s.releaseRead t)

/-- The events of a move. -/
def eventsOf : RwMove → RwSession → List RwEvent
  | .call t c, s => if s.phase t ≠ .idle then [] else eventsOfCall t s.lock c
  | .snapshot _, _ => []
  | .resume t, s => eventsOfResume t s.lock (s.phase t)

/-- The session after some moves. -/
def after (ms : List RwMove) (s : RwSession) : RwSession := ms.foldl (fun s m => s.move m) s

/-- The events of some moves, oldest first. -/
def history : List RwMove → RwSession → List RwEvent
  | [], _ => []
  | m :: ms, s => s.eventsOf m ++ history ms (s.move m)

variable {s : RwSession} {m : RwMove} {ms : List RwMove}

@[simp] theorem after_nil (s : RwSession) : s.after [] = s := rfl

@[simp] theorem after_cons (m : RwMove) (ms : List RwMove) (s : RwSession) :
    s.after (m :: ms) = (s.move m).after ms := rfl

theorem after_append (ms ms' : List RwMove) (s : RwSession) :
    s.after (ms ++ ms') = (s.after ms).after ms' :=
  List.foldl_append

theorem after_concat (ms : List RwMove) (m : RwMove) (s : RwSession) :
    s.after (ms ++ [m]) = (s.after ms).move m :=
  after_append ms [m] s

@[simp] theorem history_nil (s : RwSession) : s.history [] = [] := rfl

@[simp] theorem history_cons (m : RwMove) (ms : List RwMove) (s : RwSession) :
    s.history (m :: ms) = s.eventsOf m ++ (s.move m).history ms := rfl

theorem Reachable.move (h : s.Reachable) (m : RwMove) : (s.move m).Reachable := by
  cases m with
  | call t c => exact h.call t c
  | snapshot t => exact h.snapshot t
  | resume t => exact h.resume t

theorem Reachable.after (h : s.Reachable) (ms : List RwMove) : (s.after ms).Reachable := by
  induction ms generalizing s with
  | nil => exact h
  | cons m ms ih => exact ih (h.move m)

/-- The sessions that are reached are those after some moves. -/
theorem reachable_iff_exists_after : s.Reachable ↔ ∃ ms, s = start.after ms := by
  constructor
  · intro h
    induction h with
    | start => exact ⟨[], rfl⟩
    | call t c _ ih =>
        obtain ⟨ms, rfl⟩ := ih
        exact ⟨_, (after_concat ms (.call t c) start).symm⟩
    | snapshot t _ ih =>
        obtain ⟨ms, rfl⟩ := ih
        exact ⟨_, (after_concat ms (.snapshot t) start).symm⟩
    | resume t _ ih =>
        obtain ⟨ms, rfl⟩ := ih
        exact ⟨_, (after_concat ms (.resume t) start).symm⟩
  · rintro ⟨ms, rfl⟩
    exact Reachable.start.after ms

end RwSession

namespace RwState

open RwEvent

/-- Whether one hold of a thread is all that keeps the lock from being free. -/
def SoleHold (t : ThreadId) : RwSide → RwState → Prop
  | .read, s => s.writer = none ∧ s.readers = [t]
  | .write, s => s.writer = some t ∧ s.readers = []

/-- What one move of `t` does to the lock, and the events that it leaves. -/
inductive Change (t : ThreadId) (s : RwState) : List RwEvent → RwState → Prop where
  | same : Change t s [] s
  | queueRead (hme : ¬ s.IsQueued t) (hw : s.writer ≠ none) (hne : s.writer ≠ some t) :
      Change t s [queued t .read] { s with readQueue := s.readQueue ++ [t] }
  | queueWrite (hme : ¬ s.IsQueued t) (hheld : s.writer ≠ none ∨ s.readers ≠ [])
      (hne : s.writer ≠ some t) (hnr : t ∉ s.readers) :
      Change t s [queued t .write] { s with writeQueue := s.writeQueue ++ [t] }
  | takeRead (hw : s.writer = none) :
      Change t s [taken t .read] { s with readers := s.readers ++ [t] }
  | takeWrite (hw : s.writer = none) (hr : s.readers = []) :
      Change t s [taken t .write] { s with writer := some t }
  /-- A release that leaves other read holds. -/
  | leave {rs : List ThreadId} (hw : s.writer = none) (hperm : (t :: rs).Perm s.readers)
      (hrest : rs ≠ []) : Change t s [released t .read] { s with readers := rs }
  /-- A last release while a writer is queued. -/
  | handToWriter {side : RwSide} {next : ThreadId} {rest : List ThreadId} (hme : ¬ s.IsQueued t)
      (hlast : s.SoleHold t side) (hq : s.writeQueue = next :: rest) :
      Change t s [released t side, granted next .write] ⟨some next, [], s.readQueue, rest⟩
  /-- A last release while no writer is queued. -/
  | handToReaders {side : RwSide} (hme : ¬ s.IsQueued t) (hlast : s.SoleHold t side)
      (hq : s.writeQueue = []) :
      Change t s (released t side :: s.readQueue.map fun r => granted r .read)
        ⟨none, s.readQueue, [], []⟩

variable {s s' : RwState} {t : ThreadId} {side : RwSide}

/-! ## Critical sections -/

theorem change_requestRead (hme : ¬ s.IsQueued t) :
    Change t s (ofVerdict t .read (s.requestRead t).1) (s.requestRead t).2 := by
  rw [requestRead]
  split
  · exact .same
  · split
    · exact .takeRead ‹_›
    · exact .queueRead hme ‹_› ‹_›

theorem change_requestWrite (hme : ¬ s.IsQueued t) :
    Change t s (ofVerdict t .write (s.requestWrite t).1) (s.requestWrite t).2 := by
  rw [requestWrite]
  split
  · exact .same
  · rename_i hheld
    obtain ⟨hne, hnr⟩ := not_or.mp hheld
    split
    · rename_i hfree
      exact .takeWrite hfree.1 hfree.2
    · rename_i hfree
      exact .queueWrite hme (Decidable.not_and_iff_or_not.mp hfree) hne hnr

theorem change_tryRead : Change t s (ofAttempt t .read (s.tryRead t).1) (s.tryRead t).2 := by
  rw [tryRead]
  split
  · exact .takeRead ‹_›
  · exact .same

theorem change_tryWrite : Change t s (ofAttempt t .write (s.tryWrite t).1) (s.tryWrite t).2 := by
  rw [tryWrite]
  split
  · rename_i hfree
    exact .takeWrite hfree.1 hfree.2
  · exact .same

/-- The oldest queued writer is next once nobody holds the lock. -/
theorem handoff_to_writer {next : ThreadId} {rest : List ThreadId} (hw : s.writer = none)
    (hr : s.readers = []) (hq : s.writeQueue = next :: rest) :
    s.handoff = (.writer next, ⟨some next, [], s.readQueue, rest⟩) := by
  simp [handoff, hw, hr, hq]

/-- Without queued writers all queued readers are next. -/
theorem handoff_to_readers (hw : s.writer = none) (hr : s.readers = []) (hq : s.writeQueue = []) :
    ofHandoff s s.handoff.1 = s.readQueue.map (fun r => granted r .read) ∧
      s.handoff.2 = ⟨none, s.readQueue, [], []⟩ := by
  obtain ⟨writer, readers, readQueue, writeQueue⟩ := s
  obtain rfl : writer = none := hw
  obtain rfl : readers = [] := hr
  obtain rfl : writeQueue = [] := hq
  cases readQueue with
  | nil => exact ⟨rfl, rfl⟩
  | cons r rest => simp [handoff, ofHandoff]

/-- Nobody is next while there are read holds, for no reader is queued then. -/
theorem handoff_to_nobody (hw : s.writer = none) (hr : s.readers ≠ []) (hq : s.readQueue = []) :
    s.handoff = (.nobody, s) := by
  obtain ⟨r, rest, hr⟩ := List.exists_cons_of_ne_nil hr
  simp [handoff, hw, hr, hq]

/-- A last release hands the lock over. The state in between, `s'`, has no holder. -/
theorem change_handoff (hme : ¬ s.IsQueued t) (hlast : s.SoleHold t side)
    (hfree : s' = { s with writer := none, readers := [] }) :
    Change t s (ofRelease t side s (some s'.handoff)) s'.handoff.2 := by
  have hrelease : ofRelease t side s (some s'.handoff) =
      released t side :: ofHandoff s' s'.handoff.1 := by
    rw [hfree]
    cases hh : (handoff { s with writer := none, readers := [] }).1 <;>
      simp [ofRelease, ofHandoff, hh]
  rw [hrelease]
  subst hfree
  cases hq : s.writeQueue with
  | nil =>
      obtain ⟨hgrants, hstate⟩ := handoff_to_readers
        (s := { s with writer := none, readers := [] }) rfl rfl hq
      simp only [hq] at hgrants hstate ⊢
      rw [hgrants, hstate]
      exact .handToReaders hme hlast hq
  | cons next rest =>
      have hhand := handoff_to_writer
        (s := { s with writer := none, readers := [] }) rfl rfl hq
      simp only [hq] at hhand ⊢
      rw [hhand]
      exact .handToWriter hme hlast hq

theorem Regular.change_releaseRead (h : s.Regular) (hme : ¬ s.IsQueued t) :
    Change t s (ofRelease t .read s (s.releaseRead t))
      (((s.releaseRead t).map Prod.snd).getD s) := by
  cases hout : s.releaseRead t with
  | none => exact .same
  | some out =>
      obtain ⟨s', hs', rfl⟩ := Option.map_eq_some_iff.mp hout
      obtain ⟨rs, rfl, hperm⟩ := withoutReader?_eq_some hs'
      have hw : s.writer = none := by
        apply h.exclusive.resolve_right
        intro hnil
        simp [hnil] at hperm
      by_cases hrest : rs = []
      · subst hrest
        have hr : s.readers = [t] := List.perm_singleton.mp hperm.symm
        exact change_handoff hme ⟨hw, hr⟩ (by rw [← hw])
      · have hhand : handoff { s with readers := rs } = (.nobody, { s with readers := rs }) :=
          handoff_to_nobody hw hrest (h.readQueue_eq_nil hw)
        rw [hhand]
        exact .leave hw hperm hrest

theorem Regular.change_releaseWrite (h : s.Regular) (hme : ¬ s.IsQueued t) :
    Change t s (ofRelease t .write s (s.releaseWrite t))
      (((s.releaseWrite t).map Prod.snd).getD s) := by
  rw [RwState.releaseWrite]
  split
  · rename_i hw
    have hr : s.readers = [] := h.exclusive.resolve_left (by simp [hw])
    exact change_handoff hme ⟨hw, hr⟩ (by rw [← hr])
  · exact .same

end RwState

namespace RwSession

open RwState RwEvent

variable {s : RwSession} {t : ThreadId} {c : RwCall} {side : RwSide}

theorem lock_release (t : ThreadId) (c : RwCall) (outcome : Option (Handoff × RwState))
    (s : RwSession) : (s.release t c outcome).lock = (outcome.map Prod.snd).getD s.lock := by
  cases outcome <;> rfl

theorem lock_request (t : ThreadId) (c : RwCall) (asleep : RwPhase) (outcome : Verdict × RwState)
    (s : RwSession) : (s.request t c asleep outcome).lock = outcome.2 := by
  obtain ⟨verdict, lock⟩ := outcome
  cases verdict <;> rfl

theorem Sound.change_call (h : s.Sound) (hidle : s.phase t = .idle) :
    Change t s.lock (eventsOfCall t s.lock c) (s.call t c).lock := by
  have hq : ¬ s.lock.IsQueued t := h.not_queued (by simp [hidle]) (by simp [hidle])
  rw [RwSession.call.eq_def, if_neg (not_not.mpr hidle)]
  cases c with
  | readLock =>
      rw [lock_request]
      exact change_requestRead hq
  | writeLock =>
      rw [lock_request]
      exact change_requestWrite hq
  | tryReadLock => exact change_tryRead
  | tryWriteLock => exact change_tryWrite
  | readUnlock =>
      rw [lock_release]
      exact h.regular.change_releaseRead hq
  | writeUnlock =>
      rw [lock_release]
      exact h.regular.change_releaseWrite hq
  | unlock => exact .same

/-- A sleeper that resumes leaves no event: it does not grant itself anything. -/
theorem Sound.eventsOfResume_asleep (h : s.Sound)
    (ht : s.phase t = .reading ∨ s.phase t = .writing) :
    eventsOfResume t s.lock (s.phase t) = [] := by
  rcases ht with hp | hp
  · rw [hp, eventsOfResume, h.regular.recheckRead]
    split <;> simp_all [ofAttempt]
  · rw [hp, eventsOfResume, h.regular.recheckWrite ((h.placed t).writing hp)]
    split <;> simp_all [ofAttempt]

theorem Sound.change_resume (h : s.Sound) :
    Change t s.lock (eventsOfResume t s.lock (s.phase t)) (s.resume t).lock := by
  cases hp : s.phase t with
  | idle =>
      rw [RwSession.resume, hp]
      exact .same
  | reading =>
      rw [← hp, h.eventsOfResume_asleep (.inl hp), h.resume_reading hp]
      split <;> exact .same
  | writing =>
      rw [← hp, h.eventsOfResume_asleep (.inr hp), h.resume_writing hp]
      split <;> exact .same
  | unlocking asWriter =>
      have hq : ¬ s.lock.IsQueued t := h.not_queued (by simp [hp]) (by simp [hp])
      cases asWriter with
      | true =>
          rw [RwSession.resume, hp, lock_release]
          exact h.regular.change_releaseWrite hq
      | false =>
          rw [RwSession.resume, hp, lock_release]
          exact h.regular.change_releaseRead hq

/-- What a move does to the lock. -/
theorem Sound.change (h : s.Sound) (m : RwMove) :
    Change m.worker s.lock (s.eventsOf m) (s.move m).lock := by
  cases m with
  | call t c =>
      by_cases hidle : s.phase t = .idle
      · rw [eventsOf, if_neg (not_not.mpr hidle)]
        exact h.change_call hidle
      · rw [eventsOf, if_pos hidle, RwSession.move, RwSession.call.eq_def, if_pos hidle]
        exact .same
  | snapshot t =>
      have hlock : (s.snapshot t).lock = s.lock := by
        rw [RwSession.snapshot]
        split <;> rfl
      rw [eventsOf, RwSession.move, hlock]
      exact .same
  | resume t => exact h.change_resume

end RwSession

end Baton
