import Baton.Sched.Basic

/-!
# Scheduler: the slots after each operation

What the operations do to a thread's slot, read off one key at a time. A thread's standing is the
part of its slot that the scheduler itself acts on: whether it is live, its status, and whether the
baton lies ready for it.
-/

namespace Baton

namespace Sched

variable {s s' : Sched} {me id t : ThreadId}

/-- Whether a thread is live and running. -/
def isRunning (id : ThreadId) (s : Sched) : Bool :=
  (s.slots.get? id).any fun slot => slot.status.state == .running

/-- What a live thread is doing, and whether the baton lies ready for it. -/
def standing (t : ThreadId) (s : Sched) : Option (RunState × Bool) :=
  (s.slots.get? t).map fun slot => (slot.status.state, slot.baton)

theorem isLive_eq (t : ThreadId) (s : Sched) : s.isLive t = (s.standing t).isSome := by
  simp [isLive, standing]

theorem isRunning_eq (t : ThreadId) (s : Sched) :
    s.isRunning t = (s.standing t).any fun x => x.1 == .running := by
  cases h : s.slots.get? t <;> simp [isRunning, standing, h]

theorem isRunnable_eq (t : ThreadId) (s : Sched) :
    s.isRunnable t = (s.standing t).any fun x => x.1 == .runnable := by
  cases h : s.slots.get? t <;> simp [isRunnable, standing, h]

theorem isStopped_eq (t : ThreadId) (s : Sched) :
    s.isStopped t = (s.standing t).any fun x => x.1 == .stopped := by
  cases h : s.slots.get? t <;> simp [isStopped, Status.isStopped, standing, h]

theorem hasBaton_eq (t : ThreadId) (s : Sched) : s.hasBaton t = (s.standing t).any (·.2) := by
  cases h : s.slots.get? t <;> simp [hasBaton, standing, h]

/-- One thread's standing becomes `x`, and the others' stay. -/
def Restands (me : ThreadId) (x : Option (RunState × Bool)) (s s' : Sched) : Prop :=
  ∀ t, s'.standing t = if t = me then x else s.standing t

namespace Restands

variable {x : Option (RunState × Bool)}

theorem isLive (h : Restands me x s s') (t : ThreadId) :
    s'.isLive t = if t = me then x.isSome else s.isLive t := by
  rw [isLive_eq, isLive_eq, h t]
  split <;> rfl

theorem isRunning (h : Restands me x s s') (t : ThreadId) :
    s'.isRunning t = if t = me then x.any (fun y => y.1 == .running) else s.isRunning t := by
  rw [isRunning_eq, isRunning_eq, h t]
  split <;> rfl

theorem isRunnable (h : Restands me x s s') (t : ThreadId) :
    s'.isRunnable t = if t = me then x.any (fun y => y.1 == .runnable) else s.isRunnable t := by
  rw [isRunnable_eq, isRunnable_eq, h t]
  split <;> rfl

theorem isStopped (h : Restands me x s s') (t : ThreadId) :
    s'.isStopped t = if t = me then x.any (fun y => y.1 == .stopped) else s.isStopped t := by
  rw [isStopped_eq, isStopped_eq, h t]
  split <;> rfl

theorem hasBaton (h : Restands me x s s') (t : ThreadId) :
    s'.hasBaton t = if t = me then x.any (·.2) else s.hasBaton t := by
  rw [hasBaton_eq, hasBaton_eq, h t]
  split <;> rfl

end Restands

theorem isLive_of_isRunning (h : s.isRunning t = true) : s.isLive t = true := by
  rw [isRunning_eq] at h
  rw [isLive_eq]
  exact Option.isSome_of_any h

theorem isLive_of_isStopped (h : s.isStopped t = true) : s.isLive t = true := by
  rw [isStopped_eq] at h
  rw [isLive_eq]
  exact Option.isSome_of_any h

theorem isLive_of_isRunnable (h : s.isRunnable t = true) : s.isLive t = true := by
  rw [isRunnable_eq] at h
  rw [isLive_eq]
  exact Option.isSome_of_any h

/-- A live thread runs, waits for its turn, or is stopped. -/
theorem isRunning_or_of_isLive (h : s.isLive t = true) :
    s.isRunning t = true ∨ s.isRunnable t = true ∨ s.isStopped t = true := by
  rw [isLive_eq, Option.isSome_iff_exists] at h
  obtain ⟨⟨state, _⟩, hx⟩ := h
  rw [isRunning_eq, isRunnable_eq, isStopped_eq, hx]
  cases state <;> simp

theorem isRunnable_eq_false_of_isRunning (h : s.isRunning t = true) : s.isRunnable t = false := by
  rw [isRunning_eq] at h
  rw [isRunnable_eq]
  cases hx : s.standing t with
  | none => rfl
  | some x =>
      rw [hx] at h
      simp_all

theorem isStopped_eq_false_of_isRunning (h : s.isRunning t = true) : s.isStopped t = false := by
  rw [isRunning_eq] at h
  rw [isStopped_eq]
  cases hx : s.standing t with
  | none => rfl
  | some x =>
      rw [hx] at h
      simp_all

theorem isRunnable_eq_false_of_isStopped (h : s.isStopped t = true) : s.isRunnable t = false := by
  rw [isStopped_eq] at h
  rw [isRunnable_eq]
  cases hx : s.standing t with
  | none => rfl
  | some x =>
      rw [hx] at h
      simp_all

/-! ## Changes of one slot -/

@[simp] theorem get?_onSlot (id t : ThreadId) (f : Slot → Slot) (s : Sched) :
    (s.onSlot id f).slots.get? t = if t = id then (s.slots.get? id).map f else s.slots.get? t :=
  Store.get?_modify s.slots id t f

/-- A change of one slot. -/
theorem restands_onSlot (me : ThreadId) (f : Slot → Slot) (s : Sched) :
    Restands me ((s.slots.get? me).map fun x => ((f x).status.state, (f x).baton)) s
      (s.onSlot me f) := by
  intro t
  unfold standing
  rw [get?_onSlot]
  split
  · rw [Option.map_map]
    rfl
  · rfl

/-- A change that keeps the run state and the baton. -/
theorem standing_onSlot {f : Slot → Slot} (hf : ∀ x, s.slots.get? id = some x →
    (f x).status.state = x.status.state ∧ (f x).baton = x.baton) :
    (s.onSlot id f).standing t = s.standing t := by
  unfold standing
  rw [get?_onSlot]
  split
  · rename_i h
    subst h
    cases hx : s.slots.get? t with
    | none => rfl
    | some x => simp [hf x hx]
  · rfl

/-! ## Wakeups -/

/-- A wakeup reaches the status of one thread, the ready queue and the journal. -/
theorem wakeup_eq (id : ThreadId) (s : Sched) : s.wakeup id = { s with
    slots := s.slots.modify id fun slot => { slot with status := slot.status.wake }
    ready := s.ready ++ if s.isStopped id then [id] else []
    entered := (if s.isStopped id then [id] else []) ++ s.entered
    journal := (if s.isStopped id then [.woken id] else []) ++ s.journal } := by
  unfold wakeup
  cases s.isStopped id
  · simp [onStatus, onSlot]
  · rfl

@[simp] theorem ready_wakeup (id : ThreadId) (s : Sched) :
    (s.wakeup id).ready = s.ready ++ if s.isStopped id then [id] else [] := by
  rw [wakeup_eq]

@[simp] theorem entered_wakeup (id : ThreadId) (s : Sched) :
    (s.wakeup id).entered = (if s.isStopped id then [id] else []) ++ s.entered := by
  rw [wakeup_eq]

@[simp] theorem journal_wakeup (id : ThreadId) (s : Sched) :
    (s.wakeup id).journal = (if s.isStopped id then [.woken id] else []) ++ s.journal := by
  rw [wakeup_eq]

@[simp] theorem dispatched_wakeup (id : ThreadId) (s : Sched) :
    (s.wakeup id).dispatched = s.dispatched := by
  rw [wakeup_eq]

@[simp] theorem live_wakeup (id : ThreadId) (s : Sched) : (s.wakeup id).live = s.live := by
  rw [wakeup_eq]

@[simp] theorem ids_wakeup (id : ThreadId) (s : Sched) : (s.wakeup id).ids = s.ids := by
  rw [wakeup_eq]

@[simp] theorem turn_wakeup (id : ThreadId) (s : Sched) : (s.wakeup id).turn = s.turn := by
  rw [wakeup_eq]

@[simp] theorem canIdle_wakeup (id : ThreadId) (s : Sched) :
    (s.wakeup id).canIdle = s.canIdle := by
  rw [wakeup_eq]
  rfl

@[simp] theorem get?_wakeup (id t : ThreadId) (s : Sched) : (s.wakeup id).slots.get? t =
    if t = id then (s.slots.get? id).map fun slot => { slot with status := slot.status.wake }
    else s.slots.get? t := by
  rw [wakeup_eq]
  exact Store.get?_modify ..

theorem standing_wakeup (id t : ThreadId) (s : Sched) : (s.wakeup id).standing t =
    if t = id then (s.standing id).map fun x => (if x.1 = .stopped then .runnable else x.1, x.2)
    else s.standing t := by
  unfold standing
  rw [get?_wakeup]
  split
  · rcases s.slots.get? id with _ | ⟨⟨state, notified⟩, baton, joiners, delivery⟩
    · rfl
    · cases state <;> rfl
  · rfl

@[simp] theorem isLive_wakeup (id t : ThreadId) (s : Sched) :
    (s.wakeup id).isLive t = s.isLive t := by
  rw [isLive_eq, isLive_eq, standing_wakeup]
  split
  · rename_i h
    simp [h]
  · rfl

@[simp] theorem hasBaton_wakeup (id t : ThreadId) (s : Sched) :
    (s.wakeup id).hasBaton t = s.hasBaton t := by
  rw [hasBaton_eq, hasBaton_eq, standing_wakeup]
  split
  · rename_i h
    subst h
    cases s.standing t <;> rfl
  · rfl

@[simp] theorem isRunning_wakeup (id t : ThreadId) (s : Sched) :
    (s.wakeup id).isRunning t = s.isRunning t := by
  rw [isRunning_eq, isRunning_eq, standing_wakeup]
  split
  · rename_i h
    subst h
    rcases s.standing t with _ | ⟨state, baton⟩
    · rfl
    · cases state <;> rfl
  · rfl

@[simp] theorem isRunnable_wakeup (id t : ThreadId) (s : Sched) :
    (s.wakeup id).isRunnable t = (s.isRunnable t || (decide (t = id) && s.isStopped id)) := by
  rw [isRunnable_eq, isRunnable_eq, isStopped_eq, standing_wakeup]
  split
  · rename_i h
    subst h
    rcases s.standing t with _ | ⟨state, baton⟩
    · simp
    · cases state <;> simp
  · simp [*]

@[simp] theorem isStopped_wakeup (id t : ThreadId) (s : Sched) :
    (s.wakeup id).isStopped t = (s.isStopped t && decide (t ≠ id)) := by
  rw [isStopped_eq, isStopped_eq, standing_wakeup]
  split
  · rename_i h
    subst h
    rcases s.standing t with _ | ⟨state, baton⟩
    · rfl
    · cases state <;> simp
  · simp [*]

theorem wakeAll_cons (id : ThreadId) (ids : List ThreadId) (s : Sched) :
    s.wakeAll (id :: ids) = (s.wakeup id).wakeAll ids := rfl

@[simp] theorem isLive_wakeAll (ids : List ThreadId) (t : ThreadId) (s : Sched) :
    (s.wakeAll ids).isLive t = s.isLive t := by
  induction ids generalizing s with
  | nil => rfl
  | cons id ids ih => rw [wakeAll_cons, ih, isLive_wakeup]

/-- After a round of wakeups nobody of the round is stopped. -/
theorem isStopped_wakeAll (ids : List ThreadId) (t : ThreadId) (s : Sched) :
    (s.wakeAll ids).isStopped t = (s.isStopped t && decide (t ∉ ids)) := by
  induction ids generalizing s with
  | nil => simp [wakeAll]
  | cons id ids ih =>
      rw [wakeAll_cons, ih, isStopped_wakeup]
      simp [Bool.and_assoc]

theorem restands_retire (me : ThreadId) (turn : Turn) (s : Sched) :
    Restands me none s (s.retire me turn) := by
  intro t
  unfold standing retire
  rw [Store.get?_erase]
  split <;> rfl

end Sched

end Baton
