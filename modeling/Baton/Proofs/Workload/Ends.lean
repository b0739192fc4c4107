import Baton.Proofs.Workload.Joins

/-!
# Balanced workloads: ending threads

A thread that has gone through its sections ends. The main thread is the last one: it suspends until
all others have ended, and with it the run is over.
-/

namespace Baton

namespace Balanced

open Function (update)
open Machine (SameObjects)

variable {own : List Section} {others : List (List Section)} {p : ThreadId → Point}
  {m m' : Machine} {me : ThreadId} {x : Point} {r : Reply} {i k : Nat} {e : ErrorText}

/-- A thread has left the scheduler. -/
theorem Staged.ends {th : Thread} (h : Staged own others p m) (hs : SameObjects m m')
    (hthreads : m'.threads = m.threads) (hmain : m'.sched.main = m.sched.main)
    (hwaiters : m'.sched.waiters = m.sched.waiters)
    (hlive : ∀ t, m'.sched.isLive t = (m.sched.isLive t && decide (t ≠ me)))
    (hstopped : ∀ t, m'.sched.isStopped t = true → m.sched.isStopped t = true) :
    Staged own others (update p me .finished) (m'.withThread me th) where
  toPlaced := h.toPlaced.ends rfl hs.host hs.code hthreads hmain hwaiters hlive hstopped
  stranger t ht := by
    by_cases hne : t = me
    · rw [hne, Function.update_self]
    · rw [Function.update_of_ne hne]
      exact h.stranger t ht

/-- A thread that has gone through its sections is done. -/
theorem Led.ends (h : Led others p m) (hme : me ≠ .first) (hworking : (p me).stage = .working)
    (hids : m'.sched.ids = m.sched.ids) (hhandles : m'.handles = m.handles)
    (houtcomes : m'.outcomes = m.outcomes.set me (.finished k))
    (hmain : m'.mainOutcome = m.mainOutcome) (hover : m.sched.turn ≠ .over) :
    Led others (update p me .finished) m' := by
  have hfirst : update p me .finished .first = p .first := Function.update_of_ne (Ne.symm hme) ..
  exact {
    ids := by
      rw [hfirst, hids]
      exact h.ids
    entered := by
      rw [hfirst]
      exact h.entered.congr hhandles hmain
    worker := by
      intro t ht
      by_cases hne : t = me
      · rw [hne, Function.update_self]
        rfl
      · rw [Function.update_of_ne hne]
        exact h.worker t ht
    unborn := by
      intro i hi
      rw [hfirst]
      intro hstarted
      have hunborn := h.unborn i hi hstarted
      have hne : spawned i ≠ me := by
        rintro rfl
        rw [hworking] at hunborn
        cases hunborn
      rwa [Function.update_of_ne hne]
    born := by
      intro i
      rw [hfirst]
      intro hi todo
      by_cases hne : spawned i = me
      · rw [hne, Function.update_self]
        exact Stage.noConfusion
      · rw [Function.update_of_ne hne]
        exact h.born i hi todo
    outcomes := by
      intro i hi
      rw [houtcomes, Store.get?_set]
      split
      · exact fun _ => ⟨k, rfl⟩
      · rename_i hne
        rw [Function.update_of_ne hne]
        exact h.outcomes i hi
    going := by
      rw [hfirst]
      exact .inl (h.going.resolve_right hover) }

/-- Another thread than the main one ends. -/
theorem Running.ends (h : Running own others p me m) (hme : me ≠ .first)
    (hp : p me = .outside false 0 []) : m.Attains (Onward own others p m) := by
  have hstack : (Point.outside false 0 []).stack others.length me = [.exit] := by
    simp [Point.stack, road, yields, threadCode, lastCode, hme]
  have halike : (p me).Alike .finished := by
    rw [hp]
    exact ⟨rfl, rfl, rfl, rfl⟩
  have hworking : (p me).stage = .working := by
    rw [hp]
    rfl
  apply h.attains hp (by rw [hstack]; simp)
  intro r k e _
  rw [hstack]
  apply Machine.attains_exit h.held (by rw [h.staged.main]; exact hme)
  have hturn : (m.sched.finish me).turn = .seeking me := Sched.turn_wakeAll ..
  have hwoken : Sched.Mild (fun _ => True) (m.sched.retire me (.seeking me)) (m.sched.finish me) :=
    Sched.mild_wakeAll ..
  refine .here ⟨update p me .finished, ?_, .inr ⟨me, .inr hturn⟩,
    distance_lt_of_work (workLeft_update h.mem_crew (by rw [hp]; simp [Point.work]))⟩
  exact {
    staged := by
      apply h.staged.ends
      · exact ⟨rfl, rfl, rfl, rfl, rfl, rfl, rfl⟩
      · rfl
      · exact hwoken.main
      · exact hwoken.waiters
      · exact fun t => Sched.isLive_finish me t m.sched
      · exact fun t ht => (Sched.isStopped_finish ht).1
    led := by
      apply h.led.ends hme hworking
      · exact hwoken.ids
      · rfl
      · rfl
      · rfl
      · simp [h.held]
    claims := by
      have hclaims := h.claims.stay rfl rfl halike
      exact { hclaims with }
    books := h.books.stay halike }

/-- The main thread is the last one. -/
theorem Running.concludes (h : Running own others p .first m) (hn : others.length < UInt64.size)
    (hp : p .first = x) (hx : x = .joining others.length ∨ x = .draining) (hs : SameCrew m m')
    (hsched : m'.sched = m.sched.conclude .first)
    (hmain : m'.mainOutcome = some (.finished i)) :
    (m'.withThread .first ⟨[], r, k, e⟩).Attains (Onward own others p m) := by
  have halike : (p .first).Alike .finished := by
    rw [hp]
    rcases hx with rfl | rfl <;> exact ⟨rfl, rfl, rfl, rfl⟩
  have hbooks := h.books.stay halike
  rw [← hs.memory] at hbooks
  have hclaims := h.claims.stay hs.mutexes hs.locks halike
  have hover : m'.sched.turn = .over := by
    rw [hsched]
    rfl
  have hless : Point.finished.work others.length .first < (p .first).work others.length .first := by
    rw [hp]
    rcases hx with rfl | rfl <;> simp [Point.work, lastWork]
  refine .here ⟨update p .first .finished, ?_, .inl hover,
    distance_lt_of_work (workLeft_update h.mem_crew hless)⟩
  exact {
    staged := by
      apply h.staged.ends hs.toSameObjects hs.threads
      · rw [hsched]
        rfl
      · rw [hsched]
        rfl
      · rw [hsched]
        exact fun t => Sched.isLive_retire .first t .over m.sched
      · rw [hsched]
        intro t ht
        have hretired := (Sched.isStopped_retire .first t .over m.sched).symm.trans ht
        simp only [Bool.and_eq_true] at hretired
        exact hretired.1
    led := by
      apply h.led.lead hn
      · rw [hp]
        rcases hx with rfl | rfl <;> rfl
      · show m'.sched.ids = _
        rw [hsched]
        rfl
      · exact hs.outcomes
      · exact ⟨trivial, fun j hj hj' => absurd hj' (Nat.not_lt.mpr hj), fun _ => ⟨i, hmain⟩⟩
      · exact .inr hover
    claims := { hclaims with }
    books := hbooks }

/-- The main thread's code has ended. It suspends until it is the last thread. -/
theorem Running.rests (h : Running own others p .first m) (hn : others.length < UInt64.size)
    (hp : p .first = x) (hx : x = .joining others.length ∨ x = .draining) (hs : SameCrew m m')
    (hsched : m'.sched = m.sched) (hmain : m'.mainOutcome = some (.finished i)) :
    (m'.withThread .first ⟨[.drain], r, k, e⟩).Attains (Onward own others p m) := by
  have hheld : m'.sched.turn = .held .first := by rw [hsched, h.held]
  by_cases hlive : 1 < m'.sched.live
  · apply Machine.attains_drain_again hheld hlive
    have hentered : Point.draining.stage.Entered others.length (m'.onSched (Sched.stop .first)) :=
      ⟨trivial, fun j hj hj' => absurd hj' (Nat.not_lt.mpr hj), fun _ => ⟨i, hmain⟩⟩
    have hstopped : (m'.onSched (Sched.stop .first)).sched = m.sched.stop .first := by
      rw [← hsched]
      rfl
    rcases hx with rfl | rfl
    · apply h.proceeds (q := .draining) hn hp rfl rfl ⟨rfl, rfl, rfl, rfl⟩ rfl
      · simp [Point.work, lastWork]
      · exact { hs with }
      · rw [hstopped]
        exact Sched.mild_stop .first m.sched
      · exact fun _ => rfl
      · rw [hstopped]
        exact steady_stop h.held
      · exact hentered
    · apply h.lingers hn hp rfl rfl
      · exact { hs with }
      · exact .refl _ m.sched
      · exact h.coherent.isRunning_of_held h.held
      · exact h.held
      · exact fun _ => rfl
      · exact hstopped
      · exact hentered
  · apply Machine.attains_drain hheld hlive
    apply h.concludes hn hp hx
    · exact { hs with }
    · rw [← hsched]
      rfl
    · exact hmain

/-- The main thread has joined all the others. -/
theorem Running.quits (h : Running own others p .first m) (hn : others.length < UInt64.size)
    (hp : p .first = .joining others.length) : m.Attains (Onward own others p m) := by
  have hstack : (Point.joining others.length).stack others.length .first = [.exit] := by
    simp [Point.stack, joins, List.drop_eq_nil_of_le]
  apply h.attains hp (by rw [hstack]; simp)
  intro r k e _
  rw [hstack]
  apply Machine.attains_exit_main h.held h.staged.main.symm
  apply h.rests hn hp (.inl rfl)
  · exact ⟨⟨rfl, rfl, rfl, rfl, rfl, rfl, rfl⟩, rfl, rfl⟩
  · rfl
  · rfl

/-- The main thread was woken while it waited for the others to end. -/
theorem Running.wakes_draining (h : Running own others p .first m)
    (hn : others.length < UInt64.size) (hp : p .first = .draining) :
    m.Attains (Onward own others p m) := by
  obtain ⟨i, hmain⟩ := h.led.entered.mainOutcome (.inl (by rw [hp]; rfl))
  apply h.attains hp (by simp [Point.stack])
  intro r k e _
  exact h.rests hn hp (.inr rfl) (.refl m) rfl hmain

end Balanced

end Baton
