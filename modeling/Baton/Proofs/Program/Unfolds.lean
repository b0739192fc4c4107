import Baton.Proofs.Program.Order

/-!
# Machine: waits that cannot be timed

The giver panics when its wait has a deadline that cannot be formed. That does not happen while the
clock leaves room for the longest single idle poll: a run that ends with such room is an ordinary
one (`Unfolds.reaches`), so what is proved of ordinary runs holds of every run whose waits can be
timed. What the panic leaves is told by `overflow_cases`: the waits for descriptors may be gone, and
the turn is with a thread that counts as one that waits.
-/

namespace Baton

namespace Machine

variable {m n : Machine}

/-- The room that is left for idle polls gets no larger. -/
theorem canIdle_of_step (hstep : m.step = some n) (hcan : n.sched.canIdle = true) :
    m.sched.canIdle = true := by
  rcases step_cases hstep with ⟨me, x, ts, -, -, rfl⟩ | ⟨-, s, hs, rfl⟩
  · exact (perform_moves me x (m.setStack me ts)).canIdle hcan
  · exact Sched.canIdle_of_search hs hcan

/-- What the panic of a giver leaves: it has changed nobody's status, baton or place in the queue,
and the giver has the turn and only cleans up. If the giver is the main thread, which waits for the
others, the run is over. -/
theorem overflow_cases (h : m.overflow = some n) :
    m.step = none ∧ m.sched.canIdle = false ∧
    ∃ giver turn waiters, (m.sched.turn = .seeking giver ∨ m.sched.turn = .idle giver ∨
        m.sched.turn = .stuck giver) ∧ (waiters = [] ∨ waiters = m.sched.waiters) ∧
      n.sched = { m.sched with waiters, turn } ∧
      ((turn = .held giver ∧ n.mainOutcome = m.mainOutcome ∧
          n.stackOf giver =
            (m.stackOf giver).filter Task.isCleanup ++ [.abort Instant.overflowText]) ∨
        (turn = .over ∧ giver = m.sched.main ∧ m.mainOutcome.isSome = true ∧
          n.mainOutcome = some (.panicked Instant.overflowText))) := by
  unfold overflow at h
  split at h
  · cases h
  · rename_i giver sched hpanics
    obtain ⟨hturn, waiters, hwaiters, rfl⟩ := Sched.overflow?_cases hpanics
    have hstep : m.step = none := by
      cases hstep : m.step with
      | none => rfl
      | some k =>
          rcases step_cases hstep with ⟨me, x, ts, hheld, -, -⟩ | ⟨-, s, hs, -⟩
          · simp [hheld] at hturn
          · cases hpanics.symm.trans (Sched.overflow?_of_search hs)
    have hcan : m.sched.canIdle = false := by
      cases hcan : m.sched.canIdle with
      | false => rfl
      | true => cases hpanics.symm.trans (Sched.overflow?_of_canIdle hcan)
    refine ⟨hstep, hcan, giver, ?_⟩
    split at h
    · cases h
    · split at h
      · rename_i hmain
        cases h
        exact ⟨.over, waiters, hturn, hwaiters, rfl, .inr ⟨rfl, hmain.1, hmain.2, rfl⟩⟩
      · cases h
        exact ⟨.held giver, waiters, hturn, hwaiters, rfl,
          .inl ⟨rfl, rfl, stackOf_panic giver Instant.overflowText _⟩⟩

/-- A main thread that stops with nobody to wake it goes on, and is still counted as stopped. -/
example : ((Program.machine { Program.blank with
      code := [[.stop]], idlePoll := ⟨Instant.maxSeconds * 1000000000⟩ }).run 5).overflow.any
    (fun n => n.sched.turn = .held 1 ∧ n.sched.isStopped 1 = true) = true := by
  decide

/-- Ordinary runs are runs. -/
theorem Reaches.unfolds (h : Reaches m n) : Unfolds m n := by
  induction h with
  | refl => exact .refl _
  | step _ hstep ih => exact .step ih hstep
  | wake id _ ih => exact .wake id ih
  | elapse d _ ih => exact .elapse d ih
  | outage e _ ih => exact .outage e ih

/-- A run at whose end there is room for idle polls is an ordinary one: no giver has panicked. -/
theorem Unfolds.reaches (h : Unfolds m n) (hcan : n.sched.canIdle = true) : Reaches m n := by
  induction h with
  | refl => exact .refl _
  | step _ hstep ih => exact .step (ih (canIdle_of_step hstep hcan)) hstep
  | overflow _ hpanic =>
      obtain ⟨-, hcannot, _, _, _, -, -, hsched, -⟩ := overflow_cases hpanic
      rw [hsched] at hcan
      exact absurd (hcannot.symm.trans hcan) (by simp)
  | wake id _ ih => exact .wake id (ih ((Sched.canIdle_wakeup ..).symm.trans hcan))
  | elapse d _ ih => exact .elapse d (ih ((Sched.sameRun_elapse d).quiet.canIdle hcan))
  | outage e _ ih => exact .outage e (ih hcan)

end Machine

end Baton
