import Baton.Proofs.Program.Cues

/-!
# Machine: suspensions and wakeups are those of a binary semaphore

The status of a thread is, to `stop` and `wakeup`, a pair of bits: suspended and pending. This holds
for every thread at every moment of every run, wakeups from outside included. So a suspension
returns because of a wakeup that is newer than the one that ended the suspension before it, and a
wakeup of a live thread is consumed at once or waits for the next suspension.
-/

namespace Baton

namespace Machine

variable {p : Program} {τ : List Happening} {m : Machine} {t : ThreadId}

/-- In a run that has come to `m` with the chronicle `τ`, the status of `t` has been that of a
binary semaphore. -/
structure ActsAsSemaphore (t : ThreadId) (τ : List Happening) (m : Machine) : Prop where
  /-- All cues to the thread have fitted, and its status is what they have led to. -/
  refines : ∃ x, Phase.unborn.run (cues t τ) = some x ∧ m.sched.semaphore? t = x.semaphore?
  /-- While the thread has the turn it is not on its way out of a suspension. -/
  awake : m.sched.turn = .held t → ∃ p, Phase.unborn.run (cues t τ) = some (.awake p)
  /-- A suspended thread has no wakeup pending. -/
  stopped_unnotified : m.sched.isStopped t = true → m.sched.semaphore? t = some ⟨true, false⟩
  /-- A wakeup makes a suspended thread runnable, and nothing stays pending. -/
  wakeup_suspended : m.sched.isStopped t = true →
    (m.sched.wakeup t).semaphore? t = some ⟨false, false⟩ ∧
      (m.sched.wakeup t).isRunnable t = true ∧ (m.sched.wakeup t).ready = m.sched.ready ++ [t]
  /-- A wakeup of any other live thread is pending, and so are several of them, as one. -/
  wakeup_pending : m.sched.isLive t = true → m.sched.isStopped t = false →
    ∀ n, (m.sched.wakeAll (List.replicate (n + 1) t)).semaphore? t = some ⟨false, true⟩
  /-- A stop with a wakeup pending consumes it and keeps the turn; any other suspends the thread. -/
  stop_running : m.sched.turn = .held t → ∃ pending, m.sched.semaphore? t = some ⟨false, pending⟩ ∧
    (m.sched.stop t).semaphore? t = some ⟨!pending, false⟩ ∧
      (m.sched.stop t).turn = if pending then .held t else .seeking t
  /-- Yielding changes nothing. -/
  yield_running : m.sched.turn = .held t →
    (m.sched.yieldNow t).semaphore? t = m.sched.semaphore? t
  /-- Being dispatched changes nothing. -/
  dispatch_runnable : m.sched.isRunnable t = true → ∀ giver,
    (m.sched.dispatch giver t).semaphore? t = m.sched.semaphore? t
  /-- A wakeup finds nobody exactly if the thread has not started or has left. -/
  answers : (∀ me, (m.wake me t).replyOf me = .bool false ↔ .started t ∉ τ ∨ .left t ∈ τ) ∧
    ((m.wakeAllFromOutside [t]).1 = [false] ↔ .started t ∉ τ ∨ .left t ∈ τ)
  /-- What is consumed first is a wakeup, and every later consumption is of a wakeup that was issued
  after the one before it. -/
  consumes_fresh : ∀ σs σ rest, cues t τ = σs ++ σ :: rest → Phase.ConsumesAfter σs σ →
    .wakeup ∈ σs ++ [σ] ∧ ∀ ρs ρ ρs', σs = ρs ++ ρ :: ρs' → Phase.ConsumesAfter ρs ρ →
      .wakeup ∈ ρs' ++ [σ]
  /-- Each return of a suspension has consumed a wakeup of its own; one consumption more belongs to
  a suspension that has not returned yet. -/
  returns_consume : ∀ x, Phase.unborn.run (cues t τ) = some x →
    Phase.unborn.tally Phase.returns (cues t τ) + x.isRoused.toNat =
      Phase.unborn.tally Phase.consumes (cues t τ)
  /-- A wakeup of a live thread is consumed at once, or pending until the thread stops or leaves. -/
  wakeup_kept : ∀ σs ρs, cues t τ = σs ++ .wakeup :: ρs → .start ∈ σs → .leave ∉ σs →
    .stop ∉ ρs → .leave ∉ ρs →
      Phase.ConsumesAfter σs .wakeup ∨ m.sched.semaphore? t = some ⟨false, true⟩

/-- A wakeup is pending after one or more of them that find the thread on its way. -/
theorem wakes_pending (pending : Bool) (n : Nat) :
    Semaphore.wake^[n + 1] ⟨false, pending⟩ = ⟨false, true⟩ := by
  induction n generalizing pending with
  | zero => rfl
  | succ n ih =>
      rw [Function.iterate_succ_apply]
      exact ih true

/-- A live thread that is not suspended is on its way, with a wakeup pending or not. -/
theorem exists_pending (hlive : m.sched.isLive t = true) (hgoes : m.sched.isStopped t = false) :
    ∃ pending, m.sched.semaphore? t = some ⟨false, pending⟩ := by
  rw [Sched.isLive_eq_semaphore?, Option.isSome_iff_exists] at hlive
  obtain ⟨⟨suspended, pending⟩, hsem⟩ := hlive
  rw [Sched.isStopped_eq_semaphore?, hsem] at hgoes
  obtain rfl : suspended = false := hgoes
  exact ⟨pending, hsem⟩

/-- A wakeup that is pending shows. -/
theorem semaphore?_of_isPending {x : Phase} (h : x.isPending = true) :
    x.semaphore? = some ⟨false, true⟩ := by
  cases x with
  | awake pending | roused pending =>
      obtain rfl : pending = true := h
      rfl
  | _ => cases h

/-- Suspensions and wakeups of every thread refine a binary semaphore, in every run in which no
giver panics. -/
theorem Chronicle.acts_as_semaphore (h : Chronicle p τ m) (hids : m.sched.ids.history.Nodup)
    (t : ThreadId) : ActsAsSemaphore t τ m := by
  have hhanded := IdAllocator.nodup_history_iff.mp hids
  have hc := h.reaches.coherent hhanded
  obtain ⟨x, hrun, hx⟩ := h.exists_fits hhanded t
  have hlive : m.sched.isLive t = x.isLive := by
    rw [Sched.isLive_eq_semaphore?, hx.semaphore]
    rfl
  have hstopped : m.sched.isStopped t = true → x = .asleep := by
    rw [Sched.isStopped_eq_semaphore?, hx.semaphore]
    cases x <;> simp [Phase.semaphore?]
  have hfinds : m.sched.isLive t = false ↔ .started t ∉ τ ∨ .left t ∈ τ := by
    rw [hlive, ← Bool.not_eq_true, Phase.isLive_iff hrun, start_mem_cues, leave_mem_cues,
      not_and_or, not_not]
  refine {
    refines := ⟨x, hrun, hx.semaphore⟩
    awake := fun ht => ?_
    stopped_unnotified := fun hstop => by rw [hx.semaphore, hstopped hstop]; rfl
    wakeup_suspended := fun hstop => ⟨?_, ?_, ?_⟩
    wakeup_pending := fun hl hgoes n => ?_
    stop_running := fun ht => ?_
    yield_running := fun ht => Sched.semaphore?_yieldNow
      (Sched.isStopped_eq_false_of_isRunning (hc.isRunning_of_held ht)) t
    dispatch_runnable := fun hr giver => Sched.semaphore?_dispatch ?_ t
    answers := ⟨fun me => ?_, ?_⟩
    consumes_fresh := fun σs σ rest _ hσ => ⟨hσ.wakeup_mem, ?_⟩
    returns_consume := fun y hy => ?_
    wakeup_kept := fun σs ρs hsplit hstart hleave hnostop hnoleave => ?_ }
  · obtain ⟨pending, rfl, -⟩ := hx.exists_awake ht
    exact ⟨pending, hrun⟩
  · rw [Sched.semaphore?_wakeup, if_pos rfl, hx.semaphore, hstopped hstop]
    rfl
  · rw [Sched.isRunnable_wakeup, hstop]
    simp
  · rw [Sched.ready_wakeup, hstop]
    rfl
  · obtain ⟨pending, hpending⟩ := exists_pending hl hgoes
    rw [Sched.semaphore?_wakeAll, List.count_replicate_self, hpending, Option.map_some,
      wakes_pending]
  · obtain ⟨pending, rfl, hsem⟩ := hx.exists_awake ht
    have hgoes := Sched.isStopped_eq_false_of_isRunning (hc.isRunning_of_held ht)
    refine ⟨pending, hsem, ?_, ?_⟩
    · rw [Sched.semaphore?_stop hgoes, if_pos rfl, hsem]
      rfl
    · rw [Sched.turn_stop_eq hsem, ht]
  · by_contra hstop
    have hnot := Sched.isRunnable_eq_false_of_isStopped (eq_true_of_ne_false hstop)
    exact absurd (hr.symm.trans hnot) (by simp)
  · have hreply : (m.wake me t).replyOf me = .bool (m.sched.isLive t) := replyOf_answer ..
    rw [hreply, ← hfinds, Reply.bool.injEq]
  · rw [← hfinds]
    simp [wakeAllFromOutside]
  · rintro ρs ρ ρs' rfl hρ
    exact hρ.wakeup_mem_between hσ
  · have htally := Phase.tally_returns hy
    simpa [Phase.isRoused] using htally
  · rw [hsplit] at hrun
    have hwas : ∀ y, Phase.unborn.run σs = some y → y.isLive = true :=
      fun y hy => (Phase.isLive_iff hy).mpr ⟨hstart, hleave⟩
    refine (Phase.consumed_or_pending hrun hwas hnostop hnoleave).imp_right fun hpending => ?_
    rw [hx.semaphore]
    exact semaphore?_of_isPending hpending

/-- The main thread wakes the second thread twice before that one stops twice, and once more while
it is suspended. -/
def alarmClock : Program :=
  { Program.blank with
    code := [[.spawn 1, .wakeup 2, .wakeup 2, .yield, .wakeup 2], [.stop, .stop]] }

/-- After thirty steps the second thread has consumed one pending wakeup for two, has been suspended
by the second stop, and has just been roused. -/
theorem acts_as_semaphore_alarmClock :
    (alarmClock.final 30).sched.ids.history.Nodup ∧
      cues 2 (alarmClock.trace 30) = [.start, .wakeup, .wakeup, .resume, .stop, .stop, .wakeup] ∧
      (alarmClock.final 30).sched.semaphore? 2 = some ⟨false, false⟩ ∧
      ActsAsSemaphore 2 (alarmClock.trace 30) (alarmClock.final 30) := by
  have hids : (alarmClock.final 30).sched.ids.history.Nodup := by decide
  exact ⟨hids, by decide, by decide, (chronicle_final 30 alarmClock).acts_as_semaphore hids 2⟩

end Machine

end Baton
