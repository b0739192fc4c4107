import Baton.Proofs.Sched.Rounds
import Mathlib.Logic.Function.Iterate

/-!
# Scheduler: the status of a thread as a binary semaphore

What `stop` and `wakeup` see of a live thread are two bits: whether the thread is suspended, and
whether a wakeup is pending. For each operation it is said here what it does to the semaphores of
all threads. Yielding, being dispatched and taking up the baton do nothing to them.

What most tasks do to the scheduler is a `Routine`: they wake some threads and leave the waits for
descriptors and the alarm alone.
-/

namespace Baton

/-- Whether a thread is suspended, and whether a wakeup is pending. -/
structure Semaphore where
  suspended : Bool
  pending : Bool
  deriving DecidableEq

namespace Semaphore

/-- A suspended thread goes on and nothing stays pending; for any other thread the wakeup does. -/
def wake (x : Semaphore) : Semaphore := ⟨false, !x.suspended⟩

/-- A pending wakeup is consumed; without one the thread is suspended. -/
def stop (x : Semaphore) : Semaphore := ⟨!x.pending, false⟩

end Semaphore

namespace Status

/-- The two bits that suspensions and wakeups are about. -/
def semaphore (x : Status) : Semaphore := ⟨x.isStopped, x.notified⟩

theorem semaphore_wake (x : Status) : x.wake.semaphore = x.semaphore.wake := by
  rw [semaphore, isStopped_wake, notified_wake]
  rfl

theorem semaphore_stop {x : Status} (h : x.isStopped = false) :
    x.stop.semaphore = x.semaphore.stop := by
  rw [semaphore, isStopped_stop h, notified_stop]
  rfl

/-- Runnable and running are the same to a semaphore. -/
theorem semaphore_enter {state : RunState} {x : Status} (hnew : state ≠ .stopped)
    (hold : x.isStopped = false) : (x.enter state).semaphore = x.semaphore := by
  unfold semaphore
  rw [hold]
  simpa [isStopped] using hnew

end Status

/-- Whether the notice reports that the scheduler is stuck. -/
def Notice.isAlarm : Notice → Bool
  | stuck => true
  | _ => false

namespace Sched

variable {s s' s'' : Sched} {me t id giver : ThreadId} {ids ids' : List ThreadId}

/-- The semaphore of a live thread. -/
def semaphore? (t : ThreadId) (s : Sched) : Option Semaphore :=
  (s.slots.get? t).map fun slot => slot.status.semaphore

theorem isLive_eq_semaphore? (t : ThreadId) (s : Sched) :
    s.isLive t = (s.semaphore? t).isSome := by
  rw [isLive, semaphore?, Option.isSome_map]

theorem isStopped_eq_semaphore? (t : ThreadId) (s : Sched) :
    s.isStopped t = (s.semaphore? t).any Semaphore.suspended := by
  rw [isStopped, semaphore?, Option.any_map]
  rfl

/-- A change of one slot. -/
theorem semaphore?_onSlot (id t : ThreadId) (f : Slot → Slot) (s : Sched) :
    (s.onSlot id f).semaphore? t =
      if t = id then (s.slots.get? id).map fun x => (f x).status.semaphore
      else s.semaphore? t := by
  rw [semaphore?, get?_onSlot]
  split
  · rw [Option.map_map]
    rfl
  · rfl

/-- A change of one slot that keeps the semaphore. -/
theorem semaphore?_onSlot_same (id : ThreadId) {f : Slot → Slot}
    (hf : ∀ x, s.slots.get? id = some x → (f x).status.semaphore = x.status.semaphore) :
    (s.onSlot id f).semaphore? t = s.semaphore? t := by
  rw [semaphore?_onSlot]
  split
  · rename_i h
    subst h
    cases hx : s.slots.get? t with
    | none => simp [semaphore?, hx]
    | some x => simp [semaphore?, hx, hf x hx]
  · rfl

/-! ## Wakeups -/

theorem semaphore?_wakeup (id t : ThreadId) (s : Sched) : (s.wakeup id).semaphore? t =
    if t = id then (s.semaphore? id).map Semaphore.wake else s.semaphore? t := by
  rw [semaphore?, get?_wakeup]
  split
  · rw [semaphore?, Option.map_map, Option.map_map]
    exact Option.map_congr fun x _ => x.status.semaphore_wake
  · rfl

theorem semaphore?_wakeAll (ids : List ThreadId) (t : ThreadId) (s : Sched) :
    (s.wakeAll ids).semaphore? t = (s.semaphore? t).map (Semaphore.wake^[ids.count t]) := by
  induction ids generalizing s with
  | nil => simp [wakeAll]
  | cons id ids ih =>
      rw [wakeAll_cons, ih, semaphore?_wakeup]
      by_cases h : t = id
      · subst h
        rw [if_pos rfl, List.count_cons_self, Option.map_map, Function.iterate_succ]
      · rw [if_neg h, List.count_cons_of_ne (Ne.symm h)]

/-! ## Moves of the turn -/

theorem semaphore?_stop (h : s.isStopped me = false) (t : ThreadId) :
    (s.stop me).semaphore? t =
      if t = me then (s.semaphore? me).map Semaphore.stop else s.semaphore? t := by
  have hstop := semaphore?_onSlot me t (fun x => { x with status := x.status.stop }) s
  rw [semaphore?, slots_stop]
  refine hstop.trans ?_
  split
  · rw [semaphore?, Option.map_map]
    refine Option.map_congr fun x hx => Status.semaphore_stop ?_
    rw [isStopped, hx] at h
    exact h
  · rfl

theorem semaphore?_yieldNow (h : s.isStopped me = false) (t : ThreadId) :
    (s.yieldNow me).semaphore? t = s.semaphore? t := by
  refine semaphore?_onSlot_same me fun x hx => Status.semaphore_enter (by simp) ?_
  rw [isStopped, hx] at h
  exact h

theorem semaphore?_spawn (t : ThreadId) (s : Sched) : s.spawn.2.semaphore? t =
    if t = s.ids.next then some ⟨false, false⟩ else s.semaphore? t := by
  have hget : s.spawn.2.slots.get? t =
      if t = s.ids.next then some ⟨⟨.runnable, false⟩, false, [], none⟩ else s.slots.get? t :=
    Store.get?_set ..
  rw [semaphore?, hget]
  split <;> rfl

theorem semaphore?_retire (me t : ThreadId) (turn : Turn) (s : Sched) :
    (s.retire me turn).semaphore? t = if t = me then none else s.semaphore? t := by
  have hget : (s.retire me turn).slots.get? t = if t = me then none else s.slots.get? t :=
    Store.get?_erase ..
  rw [semaphore?, hget]
  split <;> rfl

theorem semaphore?_dispatch (h : s.isStopped id = false) (t : ThreadId) :
    (s.dispatch giver id).semaphore? t = s.semaphore? t := by
  have hrun : (s.onStatus id (Status.enter .running)).semaphore? t = s.semaphore? t := by
    refine semaphore?_onSlot_same _ fun x hx => Status.semaphore_enter (by simp) ?_
    rw [isStopped, hx] at h
    exact h
  rw [dispatch]
  split
  · exact hrun
  · refine Eq.trans ?_ hrun
    exact semaphore?_onSlot_same id fun _ _ => rfl

theorem semaphore?_takeUp (htake : s.takeUp = some s') (t : ThreadId) :
    s'.semaphore? t = s.semaphore? t := by
  obtain ⟨id, -, rfl⟩ := Option.map_eq_some_iff.mp htake
  exact semaphore?_onSlot_same _ fun _ _ => rfl

/-! ## Polls -/

/-- The threads that a poll for all waiters wakes. -/
def polled (system : PollSystem Descriptor) (longest : Span) (s : Sched) : List ThreadId :=
  if s.waiters.isEmpty then []
  else
    let patience := Waiter.patience s.clock longest s.waiters
    let outcome := Waiter.pollAll system s.waiters
    let later := s.elapse (pollLength outcome patience)
    (Waiter.settle later.clock outcome later.waiters).1.map (·.1)

theorem semaphore?_tell (done : List (ThreadId × Delivery Descriptor)) (t : ThreadId)
    (s : Sched) : (s.tell done).semaphore? t = s.semaphore? t := by
  induction done generalizing s with
  | nil => rfl
  | cons d done ih => exact (ih _).trans (semaphore?_onSlot_same _ fun _ _ => rfl)

theorem semaphore?_serveWaiters (system : PollSystem Descriptor) (longest : Span) (t : ThreadId)
    (s : Sched) : (s.serveWaiters system longest).2.semaphore? t =
      (s.semaphore? t).map (Semaphore.wake^[(s.polled system longest).count t]) := by
  unfold serveWaiters polled
  split
  · simp
  · exact (semaphore?_wakeAll _ t _).trans (congrArg _ (semaphore?_tell _ t _))

/-! ## Routine changes -/

/-- How often it has been reported that the scheduler is stuck. -/
def alarms (s : Sched) : Nat := s.journal.countP Notice.isAlarm

/-- The threads `ids` are woken, and waits for descriptors and the alarm are left alone. -/
structure Routine (ids : List ThreadId) (s s' : Sched) : Prop where
  semaphore : ∀ t, s'.semaphore? t = (s.semaphore? t).map (Semaphore.wake^[ids.count t])
  waiters : s'.waiters = s.waiters
  delivery : ∀ t, s'.delivery? t = s.delivery? t
  warned : s'.warned = s.warned
  alarms : s'.alarms = s.alarms

theorem Routine.refl (s : Sched) : Routine [] s s :=
  ⟨fun t => by simp, rfl, fun _ => rfl, rfl, rfl⟩

theorem Routine.trans (h : Routine ids s s') (h' : Routine ids' s' s'') :
    Routine (ids ++ ids') s s'' where
  semaphore t := by
    rw [h'.semaphore, h.semaphore, Option.map_map, List.count_append, Nat.add_comm,
      Function.iterate_add]
  waiters := h'.waiters.trans h.waiters
  delivery t := (h'.delivery t).trans (h.delivery t)
  warned := h'.warned.trans h.warned
  alarms := h'.alarms.trans h.alarms

theorem routine_note {n : Notice} (hn : n.isAlarm = false) (s : Sched) :
    Routine [] s (s.note n) :=
  { Routine.refl s with alarms := List.countP_cons_of_neg (by simp [hn]) }

theorem routine_elapse (d : Span) (s : Sched) : Routine [] s (s.elapse d) :=
  { Routine.refl s with }

theorem routine_addJoiner (target waiter : ThreadId) (s : Sched) :
    Routine [] s (s.addJoiner target waiter) where
  semaphore t := by
    rw [List.count_nil, Function.iterate_zero, Option.map_id_fun, id_eq]
    exact semaphore?_onSlot_same _ fun _ _ => rfl
  waiters := rfl
  delivery t := by
    unfold addJoiner
    rw [delivery?_onSlot]
    split
    · rename_i h
      rw [h]
      rfl
    · rfl
  warned := rfl
  alarms := rfl

theorem routine_wakeup (id : ThreadId) (s : Sched) : Routine [id] s (s.wakeup id) where
  semaphore t := by
    rw [semaphore?_wakeup, List.count_singleton]
    by_cases h : t = id
    · simp [h]
    · simp [h, Ne.symm h]
  waiters := (sameWaits_wakeup id s).waiters
  delivery := (sameWaits_wakeup id s).delivery
  warned := by rw [wakeup_eq]
  alarms := by
    rw [Sched.alarms, journal_wakeup, List.countP_append]
    split <;> exact Nat.zero_add _

theorem routine_wakeAll (ids : List ThreadId) (s : Sched) : Routine ids s (s.wakeAll ids) := by
  induction ids generalizing s with
  | nil => exact .refl s
  | cons id ids ih => exact (routine_wakeup id s).trans (ih _)

end Sched

end Baton
