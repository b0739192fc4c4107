import Baton.Proofs.Identities
import Baton.Proofs.Program.Moves
import Baton.Program.Run

/-!
# Machine: one baton, and a fair ready queue

At every moment of a run one thread has the baton, all other live threads wait for it or are
stopped, and the ready queue names those that wait for it once each. Whoever enters the queue is
dispatched in the order of entry.

Identities are 64-bit numbers that are handed out in order. All this presupposes what the allocator
promises, that no identity is handed out twice; inside the proofs that is a bound on their number.
-/

namespace Baton

/-- The thread that runs or looks for the next one to run. -/
def Turn.holder : Turn → Option ThreadId
  | .held t | .seeking t | .choosing t | .idle t | .stuck t => some t
  | .passing | .over => none

namespace Sched

/-- Whether a thread has the baton: it has not given it away, or it has been given it. -/
def HoldsBaton (t : ThreadId) (s : Sched) : Prop := s.turn.holder = some t ∨ s.hasBaton t = true

variable {s : Sched}

/-- The baton is somewhere until the run is over, and never in two places. -/
theorem Coherent.existsUnique_holdsBaton (h : s.Coherent) (hgoing : s.turn ≠ .over) :
    ∃ t, s.HoldsBaton t ∧ ∀ u, s.HoldsBaton u → u = t := by
  by_cases hp : s.turn = .passing
  · obtain ⟨t, ht, honly⟩ := h.baton_of_passing hp
    refine ⟨t, .inr ht, fun u hu => honly u (hu.resolve_left ?_)⟩
    simp [hp, Turn.holder]
  · obtain ⟨t, ht⟩ : ∃ t, s.turn.holder = some t := by
      cases hturn : s.turn <;> simp_all [Turn.holder]
    refine ⟨t, .inl ht, fun u hu => ?_⟩
    rcases hu with hu | hu
    · exact Option.some.inj (hu.symm.trans ht)
    · exact absurd (h.passing_of_baton u hu) hp

/-- A live thread without the baton waits for it or is stopped. -/
theorem Coherent.waits_or_stopped {t : ThreadId} (h : s.Coherent) (hlive : s.isLive t = true)
    (hother : ¬ s.HoldsBaton t) : s.isRunnable t = true ∨ s.isStopped t = true := by
  apply (isRunning_or_of_isLive hlive).resolve_left
  intro hrun
  apply hother
  rcases (h.running_iff t).mp hrun with hturn | hbaton
  · exact .inl (by rw [hturn]; rfl)
  · exact .inr hbaton

end Sched

namespace Machine

variable {m m' : Machine}

/-- Taking a task off a stack changes nothing else. -/
theorem popTask_eq_some {me : ThreadId} {x : Task} (h : m.popTask me = some (x, m')) :
    ∃ ts, m.stackOf me = x :: ts ∧ m' = m.setStack me ts := by
  unfold popTask at h
  split at h
  · cases h
  · rename_i ts hstack
    cases h
    exact ⟨ts, hstack, rfl⟩

/-- A step is one of the running thread, or one of the search for the next. -/
theorem step_cases (hstep : m.step = some m') :
    (∃ me x ts, m.sched.turn = .held me ∧ m.stackOf me = x :: ts ∧
      m' = (m.setStack me ts).perform me x) ∨
    ((∀ t, m.sched.turn ≠ .held t) ∧ ∃ s, m.sched.search m.system = some s ∧
      m' = { m with sched := s }) := by
  unfold step at hstep
  split at hstep
  · rename_i me hturn
    obtain ⟨⟨x, popped⟩, hpop, rfl⟩ := Option.map_eq_some_iff.mp hstep
    obtain ⟨ts, hstack, rfl⟩ := popTask_eq_some hpop
    exact .inl ⟨me, x, ts, hturn, hstack, rfl⟩
  · rename_i hturn
    obtain ⟨s, hsearch, rfl⟩ := Option.map_eq_some_iff.mp hstep
    exact .inr ⟨hturn, s, hsearch, rfl⟩

theorem handed_le_of_step (hstep : m.step = some m') :
    m.sched.ids.handed ≤ m'.sched.ids.handed := by
  rcases step_cases hstep with ⟨me, x, ts, -, -, rfl⟩ | ⟨-, s, hs, rfl⟩
  · exact (perform_moves me x (m.setStack me ts)).handed_le
  · exact Nat.le_of_eq (congrArg _ (Sched.ids_search hs).symm)

/-- A step keeps the scheduler coherent, as long as the numbers last. -/
theorem coherent_step (h : m.sched.Coherent) (hstep : m.step = some m')
    (hids : m'.sched.ids.handed ≤ UInt64.size) : m'.sched.Coherent := by
  rcases step_cases hstep with ⟨me, x, ts, hturn, -, rfl⟩ | ⟨-, s, hs, rfl⟩
  · exact h.moves hturn (perform_moves me x (m.setStack me ts)) hids
  · exact h.search hs

/-- The scheduler is coherent at every moment of a run. -/
theorem Reaches.coherent {p : Program} (h : Reaches p.machine m)
    (hids : m.sched.ids.handed ≤ UInt64.size) : m.sched.Coherent := by
  induction h with
  | refl => exact Sched.coherent_start p.idlePoll
  | step _ hstep ih =>
      exact coherent_step (ih (Nat.le_trans (handed_le_of_step hstep) hids)) hstep hids
  | wake id _ ih => exact (ih (by simpa [wakeFromOutside, onSched] using hids)).wakeup id
  | elapse d _ ih => exact (ih hids).sameRun (Sched.sameRun_elapse d)
  | outage e _ ih => exact ih hids

/-- At every moment of a run, as long as no giver panics: one thread has the baton, until the run is
over and nobody is left; the other live threads wait for it or are stopped; the ready queue names
each waiting thread once and nobody else; whoever is taken off the queue can run, so no entry is
ever found to be stale; and those that have entered the queue are those that have been dispatched,
in this order, and then those still in it. -/
theorem Reaches.one_baton_and_ready_queue {p : Program} (h : Reaches p.machine m)
    (hids : m.sched.ids.history.Nodup) :
    ((m.sched.turn = .over ∧ ∀ t, m.sched.isLive t = false) ∨
      ∃ t, m.sched.HoldsBaton t ∧ ∀ u, m.sched.HoldsBaton u → u = t) ∧
    (∀ t, m.sched.isLive t = true → ¬ m.sched.HoldsBaton t →
      m.sched.isRunnable t = true ∨ m.sched.isStopped t = true) ∧
    (∀ t, m.sched.ready.count t = if m.sched.isRunnable t then 1 else 0) ∧
    (∀ giver t rest, m.sched.turn = .choosing giver → m.sched.ready = t :: rest →
      m.sched.isRunnable t = true) ∧
    (∀ t, Notice.stale t ∉ m.sched.journal) ∧
    m.sched.entered.reverse = m.sched.dispatched.reverse ++ m.sched.ready := by
  have hc := h.coherent (IdAllocator.nodup_history_iff.mp hids)
  refine ⟨?_, fun t hlive hother => hc.waits_or_stopped hlive hother, hc.count_ready,
    fun _ t rest _ hready => hc.isRunnable_head hready, hc.no_stale, hc.history⟩
  by_cases hover : m.sched.turn = .over
  · exact .inl ⟨hover, hc.isLive_of_live_eq_zero (hc.live_of_over hover)⟩
  · exact .inr (hc.existsUnique_holdsBaton hover)

/-- The main thread starts two threads, and all three yield. -/
def relay : Program :=
  { Program.blank with code := [[.spawn 1, .spawn 1, .yield], [.yield]] }

/-- After fifteen steps the second thread has just been handed the baton, and the main thread and
the first thread are queued behind it. -/
theorem one_baton_and_ready_queue_relay :
    ((relay.final 15).sched.turn = .passing ∧ (relay.final 15).sched.ready = [1, 2] ∧
      (relay.final 15).sched.ids.history.Nodup) ∧
    (∃ t, (relay.final 15).sched.HoldsBaton t ∧
      ∀ u, (relay.final 15).sched.HoldsBaton u → u = t) ∧
    (relay.final 15).sched.entered.reverse =
      (relay.final 15).sched.dispatched.reverse ++ [1, 2] := by
  have hpassing : (relay.final 15).sched.turn = .passing := by rfl
  have hready : (relay.final 15).sched.ready = [1, 2] := by rfl
  have hids : (relay.final 15).sched.ids.history.Nodup := by decide
  obtain ⟨hbaton, -, -, -, -, hhistory⟩ :=
    Reaches.one_baton_and_ready_queue (p := relay) ((Reaches.refl _).run 15) hids
  have hgoing : (relay.final 15).sched.turn ≠ .over := by
    rw [hpassing]
    decide
  exact ⟨⟨hpassing, hready, hids⟩, hbaton.resolve_left fun hover => hgoing hover.1,
    hready ▸ hhistory⟩

end Machine

end Baton
