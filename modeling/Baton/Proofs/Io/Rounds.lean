import Baton.Io.Script

/-!
# Transfers in rounds

A transfer is a sequence of rounds. Each round waits for readiness once, and then makes one system
call if the wait succeeded. Two errors of the system call lead to another round, one of them after
the other threads have run; everything else ends the transfer.

The calls of a transfer are recorded with their outcomes, whatever its surroundings are. The main
statement gives them in full: they are those of some rounds that start over and of one that does
not, with exactly the outcomes that the surroundings have for them.

## Implementation notes

The surroundings decide by their own state, so a finite sequence of outcomes is a list of calls that
they answer. A transfer takes as many rounds as it is given at most; it fails to come to an end only
if all of them start over.
-/

namespace Baton

namespace Transfer

variable {σ α : Type} {ch : Channel σ α} {t : Transfer} {s s' s'' : σ}

/-- A call that a transfer makes, with its outcome. -/
inductive Call (α : Type) where
  | wait (i : Interest) (r : Except IoError Unit)
  | attempt (r : Except Errno α)
  | reschedule

/-- Why a round starts over. -/
inductive Retry where
  | interrupted | again

/-- How a round ends the transfer. -/
inductive Ending (α : Type) where
  /-- The wait failed. -/
  | refused (e : IoError)
  | failed (e : Errno) (hinterrupted : e ≠ .interrupted) (hagain : e ≠ .again)
  | done (n : α)

/-- The calls of a round that starts over. -/
def Retry.calls (t : Transfer) : Retry → List (Call α)
  | interrupted => [.wait t.interest (.ok ()), .attempt (.error .interrupted), .reschedule]
  | again => [.wait t.interest (.ok ()), .attempt (.error .again)]

/-- The calls of the last round. -/
def Ending.calls (t : Transfer) : Ending α → List (Call α)
  | refused e => [.wait t.interest (.error e)]
  | failed e _ _ => [.wait t.interest (.ok ()), .attempt (.error e)]
  | done n => [.wait t.interest (.ok ()), .attempt (.ok n)]

/-- What the transfer returns. -/
def Ending.result : Ending α → Except IoError α
  | refused e => .error e
  | failed e _ _ => .error (.system e)
  | done n => .ok n

/-- The calls of rounds that start over. -/
def retries (t : Transfer) (rs : List Retry) : List (Call α) := rs.flatMap (Retry.calls t)

namespace Channel

/-- The same surroundings, which also keep the calls, oldest first. -/
def recorded (ch : Channel σ α) : Channel (σ × List (Call α)) α where
  wait i s := ((ch.wait i s.1).1, (ch.wait i s.1).2, s.2 ++ [.wait i (ch.wait i s.1).1])
  attempt s := ((ch.attempt s.1).1, (ch.attempt s.1).2, s.2 ++ [.attempt (ch.attempt s.1).1])
  reschedule s := (ch.reschedule s.1, s.2 ++ [.reschedule])

/-- The surroundings answer the calls with these outcomes and end in another state. -/
def Answers (ch : Channel σ α) : σ → List (Call α) → σ → Prop
  | s, [], s' => s' = s
  | s, .wait i r :: cs, s' => ∃ u, ch.wait i s = (r, u) ∧ ch.Answers u cs s'
  | s, .attempt r :: cs, s' => ∃ u, ch.attempt s = (r, u) ∧ ch.Answers u cs s'
  | s, .reschedule :: cs, s' => ch.Answers (ch.reschedule s) cs s'

theorem answers_append (cs ds : List (Call α)) : ch.Answers s (cs ++ ds) s'' ↔
    ∃ s', ch.Answers s cs s' ∧ ch.Answers s' ds s'' := by
  induction cs generalizing s with
  | nil => simp [Answers]
  | cons c cs ih =>
      cases c with
      | wait | attempt =>
          simp only [List.cons_append, Answers, ih]
          constructor
          · rintro ⟨u, hu, s', hcs, hds⟩
            exact ⟨s', ⟨u, hu, hcs⟩, hds⟩
          · rintro ⟨s', ⟨u, hu, hcs⟩, hds⟩
            exact ⟨u, hu, s', hcs, hds⟩
      | reschedule => exact ih

/-- Recorded surroundings answer alike, and keep what they are asked. -/
theorem Answers.recorded {cs : List (Call α)} (h : ch.Answers s cs s') (log : List (Call α)) :
    ch.recorded.Answers (s, log) cs (s', log ++ cs) := by
  induction cs generalizing s log with
  | nil =>
      obtain rfl : s' = s := h
      simp [Answers]
  | cons c cs ih =>
      rw [List.append_cons]
      cases c with
      | wait i r =>
          obtain ⟨u, hwait, hcs⟩ := h
          exact ⟨(u, log ++ [.wait i r]), by simp [Channel.recorded, hwait], ih hcs _⟩
      | attempt r =>
          obtain ⟨u, hcall, hcs⟩ := h
          exact ⟨(u, log ++ [.attempt r]), by simp [Channel.recorded, hcall], ih hcs _⟩
      | reschedule => exact ih h (log ++ [.reschedule])

end Channel

open Channel

/-! ## One round -/

/-- Every round starts over or ends the transfer. -/
theorem round_cases (ch : Channel σ α) (t : Transfer) (s : σ) :
    (∃ (r : Retry) (s' : σ), ch.Answers s (r.calls t) s') ∨
      ∃ (e : Ending α) (s' : σ), ch.Answers s (e.calls t) s' := by
  rcases hwait : ch.wait t.interest s with ⟨outcome, u⟩
  cases outcome with
  | error e => exact .inr ⟨.refused e, u, u, hwait, rfl⟩
  | ok _ =>
      rcases hcall : ch.attempt u with ⟨outcome, u'⟩
      cases outcome with
      | ok n => exact .inr ⟨.done n, u', u, hwait, u', hcall, rfl⟩
      | error e =>
          by_cases hinterrupted : e = .interrupted
          · exact .inl ⟨.interrupted, _, u, hwait, u', hinterrupted ▸ hcall, rfl⟩
          · by_cases hagain : e = .again
            · exact .inl ⟨.again, u', u, hwait, u', hagain ▸ hcall, rfl⟩
            · exact .inr ⟨.failed e hinterrupted hagain, u', u, hwait, u', hcall, rfl⟩

/-- After a round that starts over the transfer goes on with one round less. -/
theorem rounds_of_retry {r : Retry} (h : ch.Answers s (r.calls t) s') (fuel : Nat) :
    rounds ch t (fuel + 1) s = rounds ch t fuel s' := by
  cases r with
  | interrupted =>
      obtain ⟨u, hwait, u', hcall, rfl⟩ := h
      simp [rounds, hwait, hcall, next]
  | again =>
      obtain ⟨u, hwait, u', hcall, rfl⟩ := h
      simp [rounds, hwait, hcall, next, Errno.interrupted, Errno.again]

/-- A round that ends the transfer is the last one. -/
theorem rounds_of_ending {e : Ending α} (h : ch.Answers s (e.calls t) s') (fuel : Nat) :
    rounds ch t (fuel + 1) s = some (e.result, s') := by
  cases e with
  | refused e =>
      obtain ⟨u, hwait, rfl⟩ := h
      simp [rounds, hwait, Ending.result]
  | failed e hinterrupted hagain =>
      obtain ⟨u, hwait, u', hcall, rfl⟩ := h
      simp [rounds, hwait, hcall, next, hinterrupted, hagain, Ending.result]
  | done n =>
      obtain ⟨u, hwait, u', hcall, rfl⟩ := h
      simp [rounds, hwait, hcall, next, Ending.result]

/-! ## All rounds -/

/-- Rounds that all start over do not end the transfer. -/
theorem rounds_of_retries {rs : List Retry} (h : ch.Answers s (retries t rs) s') (fuel : Nat) :
    rounds ch t (rs.length + fuel) s = rounds ch t fuel s' := by
  induction rs generalizing s with
  | nil =>
      obtain rfl : s' = s := h
      rw [List.length_nil, Nat.zero_add]
  | cons r rs ih =>
      rw [retries, List.flatMap_cons, answers_append] at h
      obtain ⟨u, hround, hrest⟩ := h
      rw [List.length_cons, Nat.add_right_comm, rounds_of_retry hround, ih hrest]

/-- Some rounds start over, and the next one ends the transfer. -/
theorem rounds_of_answers {rs : List Retry} {e : Ending α} {fuel : Nat}
    (h : ch.Answers s (retries t rs ++ e.calls t) s') (hfuel : rs.length < fuel) :
    rounds ch t fuel s = some (e.result, s') := by
  obtain ⟨u, hretries, hending⟩ := (answers_append _ _).mp h
  obtain ⟨n, rfl⟩ := Nat.exists_eq_add_of_lt hfuel
  rw [Nat.add_assoc, rounds_of_retries hretries, rounds_of_ending hending]

/-- Of a number of rounds one ends the transfer, or all of them start over. -/
theorem ends_or_retries (ch : Channel σ α) (t : Transfer) (fuel : Nat) (s : σ) :
    (∃ rs s', rs.length = fuel ∧ ch.Answers s (retries t rs) s') ∨
      ∃ rs e s', rs.length < fuel ∧ ch.Answers s (retries t rs ++ Ending.calls t e) s' := by
  induction fuel generalizing s with
  | zero => exact .inl ⟨[], s, rfl, rfl⟩
  | succ fuel ih =>
      rcases round_cases ch t s with ⟨r, u, hround⟩ | ⟨e, s', hround⟩
      · rcases ih u with ⟨rs, s', hlength, hrest⟩ | ⟨rs, e, s', hlength, hrest⟩
        · refine .inl ⟨r :: rs, s', congrArg (· + 1) hlength, ?_⟩
          exact (answers_append _ _).mpr ⟨u, hround, hrest⟩
        · refine .inr ⟨r :: rs, e, s', Nat.succ_lt_succ hlength, ?_⟩
          rw [retries, List.flatMap_cons, List.append_assoc]
          exact (answers_append _ _).mpr ⟨u, hround, hrest⟩
      · exact .inr ⟨[], e, s', Nat.succ_pos fuel, hround⟩

/-- The rounds of a transfer whose calls are recorded, and of the same transfer without that. -/
theorem rounds_recorded (ch : Channel σ α) (t : Transfer) (fuel : Nat) (s : σ) :
    (rounds ch.recorded t fuel (s, []) = none ∧ rounds ch t fuel s = none ∧
      ∃ rs s', rs.length = fuel ∧ ch.Answers s (retries t rs) s') ∨
    ∃ rs e s', rs.length < fuel ∧ ch.Answers s (retries t rs ++ Ending.calls t e) s' ∧
      rounds ch.recorded t fuel (s, []) = some (e.result, (s', retries t rs ++ e.calls t)) ∧
      rounds ch t fuel s = some (e.result, s') := by
  rcases ends_or_retries ch t fuel s with ⟨rs, s', rfl, h⟩ | ⟨rs, e, s', hlength, h⟩
  · exact .inl ⟨rounds_of_retries (h.recorded []) 0, rounds_of_retries h 0, rs, s', rfl, h⟩
  · exact .inr ⟨rs, e, s', hlength, h, rounds_of_answers (h.recorded []) hlength,
      rounds_of_answers h hlength⟩

/-- A transfer, whatever surroundings it has. On a negative descriptor it fails and calls nothing.
On any other one it returns exactly if, within the rounds that it is given, some are interrupted or
would have to wait and the next one ends: what it calls, in order and with the outcomes that the
surroundings have for it, is the calls of these rounds, and it returns what the last one ends with.
It does not return exactly if all its rounds start over. Recording the calls has no effect. -/
theorem run_in_rounds (ch : Channel σ α) (t : Transfer) (fd : Int) (fuel : Nat) (s : σ) :
    (∀ r s' cs, run ch.recorded t fd fuel (s, []) = some (r, (s', cs)) ↔
      if fd < 0 then r = .error (.system .badDescriptor) ∧ s' = s ∧ cs = []
      else ∃ (rs : List Retry) (e : Ending α), rs.length < fuel ∧ r = e.result ∧
        cs = retries t rs ++ e.calls t ∧ ch.Answers s cs s') ∧
    (run ch.recorded t fd fuel (s, []) = none ↔
      0 ≤ fd ∧ ∃ rs s', rs.length = fuel ∧ ch.Answers s (retries t rs) s') ∧
    run ch t fd fuel s = (run ch.recorded t fd fuel (s, [])).map fun x => (x.1, x.2.1) := by
  by_cases hfd : fd < 0
  · have hrefused : ∀ {τ : Type} (c : Channel τ α) (u : τ),
        run c t fd fuel u = some (.error (.system .badDescriptor), u) := fun c u => if_pos hfd
    simp only [hrefused, if_pos hfd, Option.some.injEq, Prod.mk.injEq]
    refine ⟨fun r s' cs => ?_, ⟨nofun, fun h => absurd h.1 (Int.not_le.mpr hfd)⟩, rfl⟩
    constructor <;> (rintro ⟨rfl, rfl, rfl⟩; exact ⟨rfl, rfl, rfl⟩)
  · have hruns : ∀ {τ : Type} (c : Channel τ α) (u : τ), run c t fd fuel u = rounds c t fuel u :=
      fun c u => if_neg hfd
    simp only [hruns, if_neg hfd]
    have hcourse := rounds_recorded ch t fuel s
    refine ⟨fun r s' cs => ⟨fun h => ?_, ?_⟩, ⟨fun h => ?_, ?_⟩, ?_⟩
    · rcases hcourse with ⟨hnone, -⟩ | ⟨rs, e, u, hlength, hanswers, hrecorded, -⟩
      · cases hnone.symm.trans h
      · cases hrecorded.symm.trans h
        exact ⟨rs, e, hlength, rfl, rfl, hanswers⟩
    · rintro ⟨rs, e, hlength, rfl, rfl, hanswers⟩
      exact rounds_of_answers (hanswers.recorded []) hlength
    · rcases hcourse with ⟨-, -, hretries⟩ | ⟨rs, e, u, -, -, hrecorded, -⟩
      · exact ⟨Int.not_lt.mp hfd, hretries⟩
      · cases hrecorded.symm.trans h
    · rintro ⟨-, rs, s', rfl, hretries⟩
      exact rounds_of_retries (hretries.recorded []) 0
    · rcases hcourse with ⟨hnone, hplain, -⟩ | ⟨rs, e, u, -, -, hrecorded, hplain⟩
      · rw [hnone, hplain]
        rfl
      · rw [hrecorded, hplain]
        rfl

/-- A read finds nothing and is interrupted, and gets what is written while the others run. -/
example :
    let idle : PeerStep := ⟨none, none, false, none⟩
    let s : Stage := ⟨.fresh, [idle, idle], [], true, [7, 9], 0⟩
    (run (Stage.channel .read .own (Stage.read 8)).recorded .read 5 2 (s, [])).map
      (fun x => (x.1, x.2.2)) = some (.ok [7, 9],
        retries .read [.interrupted] ++ (Ending.done [7, 9]).calls .read) := by
  rfl

end Transfer

end Baton
