import Baton.Proofs.Program.Attains
import Baton.Proofs.Program.Drained
import Baton.Proofs.Program.Unfolds
import Baton.Proofs.Sched.Deadlock

/-!
# Machine: the report of a deadlock

In runs without wakeups from outside, the giver gets stuck exactly in a deadlock: as long as anybody
could go on it finds somebody, and from a deadlock nothing leads on. In all runs the report is made
once at most.
-/

namespace Baton

namespace Machine

variable {p : Program} {m m' n : Machine} {me t : ThreadId} {x : Task}

/-- Whether one machine is reached from another without wakeups from outside and without the panic
of a giver. -/
inductive Unaided : Machine → Machine → Prop where
  | refl (m : Machine) : Unaided m m
  | step {m n k : Machine} : Unaided m n → n.step = some k → Unaided m k
  | elapse {m n : Machine} (d : Span) : Unaided m n → Unaided m (n.onSched (Sched.elapse d))
  | outage {m n : Machine} (e : Option Errno) : Unaided m n → Unaided m (n.setOutage e)

theorem Unaided.reaches (h : Unaided m n) : Reaches m n := by
  induction h with
  | refl => exact .refl _
  | step _ hstep ih => exact .step ih hstep
  | elapse d _ ih => exact .elapse d ih
  | outage e _ ih => exact .outage e ih

theorem Unaided.run (h : Unaided m n) (fuel : Nat) : Unaided m (n.run fuel) := by
  induction fuel generalizing n with
  | zero => exact h
  | succ fuel ih =>
      unfold Machine.run
      split
      · rename_i hstep
        exact ih (.step h hstep)
      · exact h

/-! ## The alarm -/

theorem sameAlarm_finish (o : Outcome) : Sched.SameAlarm m.sched (m.finish me o).sched := by
  unfold finish
  split
  · exact .refl _
  · exact Sched.sameAlarm_finish me m.sched

/-- No task touches the alarm. -/
theorem sameAlarm_perform (me : ThreadId) (x : Task) (m : Machine) :
    Sched.SameAlarm m.sched (m.perform me x).sched := by
  cases hroutine : x.isRoutine with
  | true => exact (perform_routine me m hroutine).sched.sameAlarm
  | false =>
      cases x with
      | suspend => exact Sched.sameAlarm_stop me m.sched
      | pause => exact ⟨rfl, rfl⟩
      | spawn code => exact { Sched.sameAlarm_spawn m.sched with }
      | exit => exact sameAlarm_finish _
      | abort text =>
          show Sched.SameAlarm m.sched (m.abort me text).sched
          unfold abort
          split
          · exact sameAlarm_finish _
          · exact (Sched.sameAlarm_note (n := .panicked me) rfl m.sched).trans
              (sameAlarm_finish (m := m.note (.panicked me)) _)
      | drain =>
          show Sched.SameAlarm m.sched (m.drain me).sched
          unfold drain
          split
          · exact .refl _
          · exact Sched.sameAlarm_conclude me m.sched
      | select entries timeout | selectHere entries timeout =>
          refine (perform_select me m ?_).elim (fun hr => hr.sched.sameAlarm) ?_
          · rfl
          · rintro ⟨w, rfl, hperform⟩
            rw [hperform]
            exact ⟨rfl, rfl⟩
      | collect =>
          rcases perform_collect me m with ⟨-, hperform⟩ | ⟨-, r, hperform⟩
          · rw [hperform]
            exact .refl _
          · rw [hperform]
            exact Sched.sameAlarm_onSlot me _ m.sched
      | _ => cases hroutine

theorem AlarmKept.step (h : m.sched.AlarmKept) (hstep : m.step = some m') : m'.sched.AlarmKept := by
  rcases step_cases hstep with ⟨me, x, ts, -, -, rfl⟩ | ⟨-, s, hsearch, rfl⟩
  · exact h.sameAlarm (sameAlarm_perform me x (m.setStack me ts))
  · exact h.search hsearch

theorem Unfolds.alarmKept (h : Unfolds p.machine m) : m.sched.AlarmKept := by
  induction h with
  | refl => rfl
  | step _ hstep ih => exact AlarmKept.step ih hstep
  | overflow _ hpanic ih =>
      obtain ⟨-, -, _, _, _, -, -, hsched, -⟩ := overflow_cases hpanic
      rw [hsched]
      exact ih
  | @wake n id _ ih => exact ih.sameAlarm (Sched.routine_wakeup id n.sched).sameAlarm
  | elapse d _ ih => exact ih
  | outage e _ ih => exact ih

/-! ## Runs without wakeups from outside -/

theorem Steady.step (h : m.sched.Steady) (hstep : m.step = some m') : m'.sched.Steady := by
  rcases step_cases hstep with ⟨me, x, ts, hturn, -, rfl⟩ | ⟨-, s, hsearch, rfl⟩
  · have hmoves := perform_moves me x (m.setStack me ts)
    obtain ⟨hidle, hstuck⟩ := hmoves.turn_ne hturn
    exact h.of_busy (by simp [hturn]) hidle hstuck (sameAlarm_perform me x (m.setStack me ts))
  · exact h.search hsearch

theorem Unaided.steady (h : Unaided p.machine m) : m.sched.Steady := by
  induction h with
  | refl => exact ⟨fun _ _ => rfl, fun _ _ => ⟨rfl, rfl⟩, by simp [Program.machine, Sched.start]⟩
  | step _ hstep ih => exact Steady.step ih hstep
  | elapse d _ ih => exact ⟨ih.idle, ih.stuck, ih.warned⟩
  | outage e _ ih => exact ih

/-- A suspended thread has no pending wakeup. -/
theorem Reaches.semaphore?_of_isStopped (h : Reaches p.machine m)
    (hids : m.sched.ids.handed ≤ UInt64.size) (hstop : m.sched.isStopped t = true) :
    m.sched.semaphore? t = some ⟨true, false⟩ := by
  obtain ⟨τ, hτ⟩ := h.exists_chronicle
  obtain ⟨x, -, hx⟩ := hτ.exists_fits hids t
  rw [Sched.isStopped_eq_semaphore?, hx.semaphore] at hstop
  rw [hx.semaphore]
  cases x with
  | asleep => rfl
  | _ => cases hstop

theorem isStuck_iff : m.isStuck = true ↔ ∃ g, m.sched.turn = .stuck g := by
  unfold isStuck
  split
  · rename_i g hturn
    exact iff_of_true rfl ⟨g, hturn⟩
  · rename_i hturn
    exact iff_of_false (by simp) fun ⟨g, hg⟩ => hturn g hg

/-- Whoever is stuck without having been helped is deadlocked. -/
theorem Unaided.deadlocked (h : Unaided p.machine m) (hids : m.sched.ids.handed ≤ UInt64.size)
    (hstuck : m.isStuck = true) : m.sched.Deadlocked := by
  obtain ⟨g, hturn⟩ := isStuck_iff.mp hstuck
  obtain ⟨hready, hwaiters⟩ := h.steady.stuck g hturn
  have hc := h.reaches.coherent hids
  exact ⟨by simp [hturn], fun t hlive => h.reaches.semaphore?_of_isStopped hids
    (hc.isStopped_of_ready_nil (by simp [hturn, Turn.IsFree]) hready hlive), hready, hwaiters⟩

/-- A step from a deadlock leads to one, and is no step of a thread. -/
theorem Unaided.deadlocked_step (h : Unaided p.machine m)
    (hids : m.sched.ids.handed ≤ UInt64.size) (hdead : m.sched.Deadlocked)
    (hstep : m.step = some m') :
    m'.sched.Deadlocked ∧ m'.sched.ids = m.sched.ids ∧ m'.threads = m.threads := by
  have hc := h.reaches.coherent hids
  rcases step_cases hstep with ⟨me, x, ts, hturn, -, rfl⟩ | ⟨-, s, hsearch, rfl⟩
  · exact absurd hturn ((hdead.isFree hc).2 me)
  · exact ⟨(Sched.deadlocked_search_iff hc (h.reaches.enrolled hids).sched hsearch).mpr hdead,
      Sched.ids_search hsearch, rfl⟩

/-- Nothing leads out of a deadlock. -/
theorem Unaided.remains_deadlocked (h : Unaided p.machine m)
    (hids : m.sched.ids.handed ≤ UInt64.size) (hdead : m.sched.Deadlocked) (hrun : Unaided m m') :
    m'.sched.Deadlocked ∧ m'.sched.ids = m.sched.ids ∧ m'.threads = m.threads ∧
      Unaided p.machine m' := by
  induction hrun with
  | refl => exact ⟨hdead, rfl, rfl, h⟩
  | step _ hstep ih =>
      obtain ⟨hdead, hsame, hthreads, hn⟩ := ih
      obtain ⟨hdead', hsame', hthreads'⟩ := hn.deadlocked_step (by rwa [hsame]) hdead hstep
      exact ⟨hdead', hsame'.trans hsame, hthreads'.trans hthreads, hn.step hstep⟩
  | elapse d _ ih =>
      obtain ⟨hdead, hsame, hthreads, hn⟩ := ih
      exact ⟨hdead.congr hdead.going (fun _ => rfl) rfl rfl, hsame, hthreads, hn.elapse d⟩
  | outage e _ ih =>
      obtain ⟨hdead, hsame, hthreads, hn⟩ := ih
      exact ⟨hdead, hsame, hthreads, hn.outage e⟩

/-- From a deadlock the giver gets stuck, without a step of a thread. -/
theorem Unaided.exists_stuck (h : Unaided p.machine m) (hids : m.sched.ids.handed ≤ UInt64.size)
    (hdead : m.sched.Deadlocked) :
    ∃ n, (m.run n).isStuck = true ∧ ∀ k < n, ∀ t, (m.run k).sched.turn ≠ .held t := by
  induction hd : m.sched.turn.distance using Nat.strong_induction_on generalizing m with
  | _ d ih =>
      have hc := h.reaches.coherent hids
      have hfree := hdead.isFree hc
      by_cases hstuck : m.isStuck = true
      · exact ⟨0, hstuck, nofun⟩
      · have hturn : ∀ g, m.sched.turn ≠ .stuck g := fun g hg => hstuck (isStuck_iff.mpr ⟨g, hg⟩)
        obtain ⟨s, hsearch, hlt⟩ := hdead.exists_search hc hturn m.system
        have hstep := step_of_search hfree.2 hsearch
        obtain ⟨hdead', hsame, -⟩ := h.deadlocked_step hids hdead hstep
        obtain ⟨n, hn, hquiet⟩ := ih _ (hd ▸ hlt) (h.step hstep) (by rwa [hsame]) hdead' rfl
        refine ⟨n + 1, by simpa only [Machine.run, hstep] using hn, fun k hk t => ?_⟩
        cases k with
        | zero => exact hfree.2 t
        | succ k => simpa only [Machine.run, hstep] using hquiet k (by omega) t

/-- If the giver gets stuck before a thread has made a step, there is a deadlock. -/
theorem Unaided.deadlocked_of_stuck (h : Unaided p.machine m)
    (hids : m.sched.ids.handed ≤ UInt64.size) {n : Nat} (hstuck : (m.run n).isStuck = true)
    (hquiet : ∀ k < n, ∀ t, (m.run k).sched.turn ≠ .held t) : m.sched.Deadlocked := by
  induction n generalizing m with
  | zero => exact h.deadlocked hids hstuck
  | succ n ih =>
      cases hstep : m.step with
      | none => exact h.deadlocked hids (by simpa only [Machine.run, hstep] using hstuck)
      | some m' =>
          rcases step_cases hstep with ⟨me, x, ts, hturn, -, -⟩ | ⟨-, s, hsearch, rfl⟩
          · exact absurd hturn (hquiet 0 (by omega) me)
          · have hlater : s.Deadlocked := by
              refine ih (h.step hstep) (by rwa [Sched.ids_search hsearch])
                (by simpa only [Machine.run, hstep] using hstuck) fun k hk t => ?_
              simpa only [Machine.run, hstep] using hquiet (k + 1) (by omega) t
            exact (Sched.deadlocked_search_iff (h.reaches.coherent hids)
              (h.reaches.enrolled hids).sched hsearch).mp hlater

/-- The report of a deadlock is exact. In every run without wakeups from outside, the giver comes to
the point where the report is made, before any thread makes another step, if and only if every live
thread is suspended without a pending wakeup, nobody is queued and nobody is registered; no thread
makes a step from there on, unless the giver panics since it cannot time its wait; and the report
has been made, once, exactly when the giver is there. In no run at all, wakeups from outside and
panics of givers included, is the report made twice. -/
theorem deadlock_reported_exactly (p : Program) :
    (∀ m, Unaided p.machine m → m.sched.ids.history.Nodup →
      ((∃ n, (m.run n).isStuck = true ∧ ∀ k < n, ∀ t, (m.run k).sched.turn ≠ .held t) ↔
        m.sched.Deadlocked) ∧
      (m.sched.Deadlocked → ∀ m', Unaided m m' →
        m'.sched.Deadlocked ∧ m'.threads = m.threads ∧ ∀ t, m'.sched.turn ≠ .held t) ∧
      m.sched.alarms = if m.isStuck then 1 else 0) ∧
    ∀ m, Unfolds p.machine m → m.sched.alarms ≤ 1 := by
  refine ⟨fun m h hids => ?_, fun m h => h.alarmKept.le_one⟩
  have hhanded := IdAllocator.nodup_history_iff.mp hids
  refine ⟨⟨fun ⟨n, hstuck, hquiet⟩ => h.deadlocked_of_stuck hhanded hstuck hquiet,
    h.exists_stuck hhanded⟩, fun hdead m' hrun => ?_, ?_⟩
  · obtain ⟨hdead', hsame, hthreads, h'⟩ := h.remains_deadlocked hhanded hdead hrun
    exact ⟨hdead', hthreads, (hdead'.isFree (h'.reaches.coherent (by rwa [hsame]))).2⟩
  · have hwarned : m.sched.warned = m.isStuck := by
      rw [Bool.eq_iff_iff, h.steady.warned, isStuck_iff]
    rw [h.reaches.unfolds.alarmKept, hwarned]
    cases m.isStuck <;> rfl

/-- The main thread joins a thread that stops and is woken by nobody. -/
def abandoned : Program := { Program.blank with code := [[.spawn 1, .join 2], [.stop]] }

/-- After fifteen steps `abandoned` is stuck in a deadlock, which has been reported. Woken from
outside, the main thread finds nothing changed, and the scheduler is stuck again, with no second
report. -/
theorem deadlock_reported_exactly_abandoned :
    (abandoned.final 15).sched.ids.history.Nodup ∧ (abandoned.final 15).sched.Deadlocked ∧
      (abandoned.final 15).sched.alarms = 1 ∧
      (((abandoned.final 15).wakeFromOutside 1).run 9).isStuck = true ∧
      (((abandoned.final 15).wakeFromOutside 1).run 9).sched.alarms ≤ 1 := by
  have hids : (abandoned.final 15).sched.ids.history.Nodup := by decide
  have hstuck : (abandoned.final 15).isStuck = true := by decide
  have hrun : Unaided abandoned.machine (abandoned.final 15) := (Unaided.refl _).run 15
  obtain ⟨hexact, honce⟩ := deadlock_reported_exactly abandoned
  obtain ⟨hiff, -, halarms⟩ := hexact _ hrun hids
  rw [hstuck] at halarms
  exact ⟨hids, hiff.mp ⟨0, hstuck, nofun⟩, halarms, by decide,
    honce _ ((hrun.reaches.wake 1).run 9).unfolds⟩

end Machine

end Baton
