import Baton.Proofs.Sched.Search
import Baton.Proofs.Sched.Slots
import Mathlib.Data.List.Nodup

/-!
# Scheduler: statuses, ready queue and baton

A scheduler is coherent when the running thread is the one that has the turn or for which the baton
lies ready, the ready queue names each runnable thread once and nobody else, and the queue is what
has entered it without what has been dispatched. Every operation keeps this, wakeups at any moment
included.

## Implementation notes

What an operation does besides wakeups and the move of the turn is a `SameRun`: it touches only
parts that coherence does not speak of. A chain of such changes and wakeups is `Quiet`, and `Moves`
lists what one task of the running thread may do.
-/

namespace Baton

namespace Sched

variable {s s' s'' : Sched} {me t id : ThreadId}

/-- The counter of live threads is right. -/
def Census (s : Sched) : Prop :=
  ∃ ts : List ThreadId, ts.Nodup ∧ (∀ t, t ∈ ts ↔ s.isLive t = true) ∧ ts.length = s.live

theorem Census.congr (h : s.Census) (hlive : ∀ t, s'.isLive t = s.isLive t)
    (hcount : s'.live = s.live) : s'.Census := by
  simpa only [Census, hlive, hcount] using h

/-- What holds of the turn, the statuses and the ready queue at every moment of a run. -/
structure Coherent (s : Sched) : Prop where
  census : s.Census
  issued : ∀ t, s.isLive t = true → s.ids.Issued t
  count_ready : ∀ t, s.ready.count t = if s.isRunnable t then 1 else 0
  running_iff : ∀ t, s.isRunning t = true ↔ s.turn = .held t ∨ s.hasBaton t = true
  passing_of_baton : ∀ t, s.hasBaton t = true → s.turn = .passing
  baton_of_passing : s.turn = .passing →
    ∃ t, s.hasBaton t = true ∧ ∀ u, s.hasBaton u = true → u = t
  history : s.entered.reverse = s.dispatched.reverse ++ s.ready
  no_stale : ∀ t, Notice.stale t ∉ s.journal
  live_of_over : s.turn = .over → s.live = 0

theorem Coherent.isRunning_of_held (h : s.Coherent) (ht : s.turn = .held me) :
    s.isRunning me = true :=
  (h.running_iff me).mpr (.inl ht)

theorem Coherent.hasBaton_eq_false (h : s.Coherent) (ht : s.turn ≠ .passing) (t : ThreadId) :
    s.hasBaton t = false := by
  by_contra hb
  exact ht (h.passing_of_baton t (by simpa using hb))

theorem Coherent.live_pos (h : s.Coherent) (ht : s.isLive t = true) : 0 < s.live := by
  obtain ⟨ts, -, hmem, hlen⟩ := h.census
  rw [← hlen]
  exact List.length_pos_of_mem ((hmem t).mpr ht)

/-- Two live threads are counted as two. -/
theorem Coherent.one_lt_live (h : s.Coherent) {u : ThreadId} (ht : s.isLive t = true)
    (hu : s.isLive u = true) (hne : t ≠ u) : 1 < s.live := by
  obtain ⟨ts, hnodup, hmem, hlen⟩ := h.census
  rw [← hlen]
  have hsub : [t, u] ⊆ ts := by
    intro x hx
    rcases List.mem_cons.mp hx with rfl | hx
    · exact (hmem x).mpr ht
    · rw [List.mem_singleton.mp hx]
      exact (hmem u).mpr hu
  have hnodup' : [t, u].Nodup := by simpa using hne
  exact List.Nodup.length_le_of_subset hnodup' hsub

/-- Nobody is live when none is counted. -/
theorem Coherent.isLive_of_live_eq_zero (h : s.Coherent) (hlive : s.live = 0) (t : ThreadId) :
    s.isLive t = false := by
  obtain ⟨ts, -, hmem, hlen⟩ := h.census
  obtain rfl : ts = [] := List.length_eq_zero_iff.mp (hlen.trans hlive)
  by_contra ht
  exact absurd ((hmem t).mpr (by simpa using ht)) List.not_mem_nil

/-- Beside fewer threads than are counted there is another live one. -/
theorem Coherent.exists_live_not_mem (h : s.Coherent) {ts : List ThreadId}
    (hlive : ts.length < s.live) : ∃ u, u ∉ ts ∧ s.isLive u = true := by
  obtain ⟨us, hnodup, hmem, hlen⟩ := h.census
  by_contra hno
  have hall : us ⊆ ts := by
    intro u hu
    by_contra hnot
    exact hno ⟨u, hnot, (hmem u).mp hu⟩
  have := List.Nodup.length_le_of_subset hnodup hall
  omega

/-! ## Changes that leave the run alone -/

/-- The two states agree in all that coherence speaks of, but for harmless notices, and the clock
has not been set back. -/
structure SameRun (s s' : Sched) : Prop where
  standing : ∀ t, s'.standing t = s.standing t
  ready : s'.ready = s.ready
  entered : s'.entered = s.entered
  dispatched : s'.dispatched = s.dispatched
  live : s'.live = s.live
  ids : s'.ids = s.ids
  turn : s'.turn = s.turn
  stale : ∀ t, Notice.stale t ∈ s'.journal → Notice.stale t ∈ s.journal
  idlePoll : s'.idlePoll = s.idlePoll
  clock_le : s.clock.nanos ≤ s'.clock.nanos

theorem SameRun.refl (s : Sched) : SameRun s s :=
  ⟨fun _ => rfl, rfl, rfl, rfl, rfl, rfl, rfl, fun _ => id, rfl, Nat.le_refl _⟩

theorem SameRun.trans (h : SameRun s s') (h' : SameRun s' s'') : SameRun s s'' where
  standing t := (h'.standing t).trans (h.standing t)
  ready := h'.ready.trans h.ready
  entered := h'.entered.trans h.entered
  dispatched := h'.dispatched.trans h.dispatched
  live := h'.live.trans h.live
  ids := h'.ids.trans h.ids
  turn := h'.turn.trans h.turn
  stale t ht := h.stale t (h'.stale t ht)
  idlePoll := h'.idlePoll.trans h.idlePoll
  clock_le := Nat.le_trans h.clock_le h'.clock_le

theorem Coherent.sameRun (h : s.Coherent) (hs : SameRun s s') : s'.Coherent := by
  have hlive : ∀ t, s'.isLive t = s.isLive t := fun t => by rw [isLive_eq, isLive_eq, hs.standing]
  have hbaton : ∀ t, s'.hasBaton t = s.hasBaton t := fun t => by
    rw [hasBaton_eq, hasBaton_eq, hs.standing]
  have hrunnable : ∀ t, s'.isRunnable t = s.isRunnable t := fun t => by
    rw [isRunnable_eq, isRunnable_eq, hs.standing]
  have hrunning : ∀ t, s'.isRunning t = s.isRunning t := fun t => by
    rw [isRunning_eq, isRunning_eq, hs.standing]
  exact {
    census := h.census.congr hlive hs.live
    issued := by simpa only [hlive, hs.ids] using h.issued
    count_ready := by simpa only [hrunnable, hs.ready] using h.count_ready
    running_iff := by simpa only [hrunning, hbaton, hs.turn] using h.running_iff
    passing_of_baton := by simpa only [hbaton, hs.turn] using h.passing_of_baton
    baton_of_passing := by simpa only [hbaton, hs.turn] using h.baton_of_passing
    history := by simpa only [hs.entered, hs.dispatched, hs.ready] using h.history
    no_stale := fun t ht => h.no_stale t (hs.stale t ht)
    live_of_over := by simpa only [hs.turn, hs.live] using h.live_of_over }

theorem sameRun_note {n : Notice} (hn : ∀ t, n ≠ .stale t) : SameRun s (s.note n) :=
  { SameRun.refl s with
    stale := fun t ht => (List.mem_cons.mp ht).resolve_left fun he => hn t he.symm }

theorem sameRun_elapse (d : Span) : SameRun s (s.elapse d) :=
  { SameRun.refl s with clock_le := Nat.le_add_right .. }

/-- A change of a slot that keeps the run state and the baton. -/
theorem sameRun_onSlot {f : Slot → Slot}
    (hf : ∀ x, s.slots.get? id = some x →
      (f x).status.state = x.status.state ∧ (f x).baton = x.baton) : SameRun s (s.onSlot id f) :=
  { SameRun.refl s with standing := fun _ => standing_onSlot hf }

theorem sameRun_addJoiner (target waiter : ThreadId) : SameRun s (s.addJoiner target waiter) :=
  sameRun_onSlot fun _ _ => ⟨rfl, rfl⟩

theorem sameRun_await (w : Waiter Descriptor) : SameRun s (s.await w) :=
  have h : SameRun s (s.onSlot w.id fun slot => { slot with delivery := none }) :=
    sameRun_onSlot fun _ _ => ⟨rfl, rfl⟩
  { h with }

theorem sameRun_takeDelivery (id : ThreadId) : SameRun s (s.takeDelivery id) :=
  sameRun_onSlot fun _ _ => ⟨rfl, rfl⟩

/-! ## Wakeups -/

theorem Coherent.wakeup (h : s.Coherent) (id : ThreadId) : (s.wakeup id).Coherent where
  census := h.census.congr (fun t => isLive_wakeup id t s) (live_wakeup id s)
  issued := by simpa using h.issued
  count_ready t := by
    rw [isRunnable_wakeup, ready_wakeup, List.count_append, h.count_ready t]
    by_cases hst : s.isStopped id = true
    · by_cases ht : t = id
      · subst ht
        simp [hst, isRunnable_eq_false_of_isStopped hst]
      · have hne : (id == t) = false := by simpa using Ne.symm ht
        simp [hst, ht, List.count_singleton, hne]
    · simp [hst]
  running_iff t := by simpa using h.running_iff t
  passing_of_baton t := by simpa using h.passing_of_baton t
  baton_of_passing := by simpa using h.baton_of_passing
  history := by
    rw [entered_wakeup, dispatched_wakeup, ready_wakeup]
    cases s.isStopped id
    · simpa using h.history
    · simp [h.history]
  no_stale t := by
    rw [journal_wakeup]
    cases s.isStopped id
    · simpa using h.no_stale t
    · simpa using h.no_stale t
  live_of_over := by simpa using h.live_of_over

/-- Changes that leave the run alone, and wakeups. -/
inductive Quiet : Sched → Sched → Prop where
  | refl (s : Sched) : Quiet s s
  | same {s s' s'' : Sched} : Quiet s s' → SameRun s' s'' → Quiet s s''
  | wakeup {s s' : Sched} (id : ThreadId) : Quiet s s' → Quiet s (s'.wakeup id)

theorem SameRun.quiet (h : SameRun s s') : Quiet s s' := .same (.refl s) h

theorem quiet_wakeup (id : ThreadId) (s : Sched) : Quiet s (s.wakeup id) := .wakeup id (.refl s)

theorem Quiet.trans (h : Quiet s s') (h' : Quiet s' s'') : Quiet s s'' := by
  induction h' with
  | refl => exact h
  | same _ hs ih => exact .same ih hs
  | wakeup id _ ih => exact .wakeup id ih

theorem Quiet.wakeAll (h : Quiet s s') (ids : List ThreadId) : Quiet s (s'.wakeAll ids) := by
  induction ids generalizing s' with
  | nil => exact h
  | cons id ids ih => exact ih (.wakeup id h)

theorem Quiet.turn (h : Quiet s s') : s'.turn = s.turn := by
  induction h with
  | refl => rfl
  | same _ hs ih => exact hs.turn.trans ih
  | wakeup id _ ih => simpa using ih

theorem Quiet.ids (h : Quiet s s') : s'.ids = s.ids := by
  induction h with
  | refl => rfl
  | same _ hs ih => exact hs.ids.trans ih
  | wakeup id _ ih => simpa using ih

/-- Meanwhile time passes, and waits that can be timed afterwards could be timed before. -/
theorem Quiet.canIdle (h : Quiet s s') (hcan : s'.canIdle = true) : s.canIdle = true := by
  induction h with
  | refl => exact hcan
  | same _ hs ih =>
      apply ih
      apply Instant.isSome_after?_of_le hcan
      rw [hs.idlePoll]
      exact Nat.add_le_add_right hs.clock_le _
  | wakeup id _ ih => exact ih (by rwa [canIdle_wakeup] at hcan)

theorem Quiet.coherent (h : Quiet s s') (hc : s.Coherent) : s'.Coherent := by
  induction h with
  | refl => exact hc
  | same _ hs ih => exact ih.sameRun hs
  | wakeup id _ ih => exact ih.wakeup id

theorem sameRun_tell (done : List (ThreadId × Delivery Descriptor)) (s : Sched) :
    SameRun s (s.tell done) := by
  induction done generalizing s with
  | nil => exact .refl s
  | cons d done ih =>
      have hd : SameRun s (s.onSlot d.1 fun slot => { slot with delivery := some d.2 }) :=
        sameRun_onSlot fun _ _ => ⟨rfl, rfl⟩
      exact hd.trans (ih _)

/-- Handing out the outcome of a poll changes outcomes and waiters, and wakes. -/
theorem quiet_deliver (outcome : Delivery Descriptor) (s : Sched) :
    Quiet s (s.deliver outcome) := by
  have hwaiters : SameRun s { s with waiters := (Waiter.settle s.clock outcome s.waiters).2 } :=
    { SameRun.refl s with }
  exact (hwaiters.trans (sameRun_tell _ _)).quiet.wakeAll _

theorem quiet_serveWaiters (system : PollSystem Descriptor) (longest : Span) (s : Sched) :
    Quiet s (s.serveWaiters system longest).2 := by
  unfold serveWaiters
  split
  · exact .refl s
  · exact (sameRun_elapse _).quiet.trans (quiet_deliver _ _)

end Sched

end Baton
