import Baton.Proofs.Sched.Semaphore

/-!
# The life of a thread at its semaphore

A thread is started, is awake, asleep in a suspension or roused from one, and leaves. What happens
to it are cues, and not every cue fits every phase: only a thread that is awake stops, and
only one that is not asleep is resumed. A suspension returns at once if a wakeup is pending, and
otherwise when the roused thread is resumed; either way it has consumed a wakeup. What follows about
runs of cues is that no consumed wakeup is older than the consumption before it, and that no
wakeup of a thread on its way is dropped.
-/

namespace Baton

/-- What happens to a thread. -/
inductive Cue where
  | start | wakeup | stop | yield | resume | leave
  deriving DecidableEq

/-- Where a thread is in its life. -/
inductive Phase where
  | unborn
  | awake (pending : Bool)
  /-- Suspended, and not woken since. -/
  | asleep
  /-- Woken from a suspension that has not returned yet. -/
  | roused (pending : Bool)
  | gone
  deriving DecidableEq

namespace Phase

/-- The semaphore of a thread that has started and not left. -/
def semaphore? : Phase → Option Semaphore
  | unborn | gone => none
  | awake p | roused p => some ⟨false, p⟩
  | asleep => some ⟨true, false⟩

/-- Whether a wakeup is pending. -/
def isPending : Phase → Bool
  | awake p | roused p => p
  | _ => false

/-- Whether the thread has started and not left. -/
def isLive (x : Phase) : Bool := x.semaphore?.isSome

/-- Whether the thread is neither suspended nor on its way out of a suspension. -/
def isAwake : Phase → Bool
  | awake _ => true
  | _ => false

/-- Whether the thread is on its way out of a suspension. -/
def isRoused : Phase → Bool
  | roused _ => true
  | _ => false

/-- The phase after a wakeup. -/
def wake : Phase → Phase
  | unborn => unborn
  | awake _ => awake true
  | asleep => roused false
  | roused _ => roused true
  | gone => gone

/-- The phase after a cue, if the cue fits. -/
def after : Phase → Cue → Option Phase
  | unborn, .start => some (awake false)
  | awake true, .stop => some (awake false)
  | awake false, .stop => some asleep
  | awake p, .yield => some (awake p)
  | awake p, .resume => some (awake p)
  | roused p, .resume => some (awake p)
  | awake _, .leave => some gone
  | x, .wakeup => some x.wake
  | _, _ => none

/-- The phase after several cues, if all of them fit. -/
def run : Phase → List Cue → Option Phase
  | x, [] => some x
  | x, σ :: σs => (x.after σ).bind fun y => y.run σs

/-- Whether the cue consumes a wakeup: the pending one, or itself. -/
def consumes : Phase → Cue → Bool
  | awake true, .stop => true
  | asleep, .wakeup => true
  | _, _ => false

/-- Whether a suspension returns with the cue. -/
def returns : Phase → Cue → Bool
  | awake true, .stop => true
  | roused _, .resume => true
  | _, _ => false

/-- How often a cue of a run is of the kind `p`. -/
def tally (p : Phase → Cue → Bool) : Phase → List Cue → Nat
  | _, [] => 0
  | x, σ :: σs => (p x σ).toNat + ((x.after σ).map fun y => tally p y σs).getD 0

variable {x y z : Phase} {σ : Cue} {σs τs : List Cue}

theorem run_append (x : Phase) (σs τs : List Cue) :
    x.run (σs ++ τs) = (x.run σs).bind fun y => y.run τs := by
  induction σs generalizing x with
  | nil => rfl
  | cons σ σs ih =>
      rw [List.cons_append, run, run, Option.bind_assoc]
      exact congrArg _ (funext fun y => ih y)

/-- A run passes through the phase after each part of it. -/
theorem exists_of_run_append (h : x.run (σs ++ τs) = some z) :
    ∃ y, x.run σs = some y ∧ y.run τs = some z := by
  rw [run_append] at h
  exact Option.bind_eq_some_iff.mp h

theorem run_append_of (hx : x.run σs = some y) (hy : y.run τs = some z) :
    x.run (σs ++ τs) = some z := by
  rw [run_append, hx]
  exact hy

theorem run_cons (h : x.run (σ :: σs) = some z) :
    ∃ y, x.after σ = some y ∧ y.run σs = some z :=
  Option.bind_eq_some_iff.mp h

@[simp] theorem after_wakeup (x : Phase) : x.after .wakeup = some x.wake := by
  cases x with
  | awake p => cases p <;> rfl
  | _ => rfl

/-! ## Wakeups -/

@[simp] theorem isAwake_wake (x : Phase) : x.wake.isAwake = x.isAwake := by
  cases x <;> rfl

/-- A wakeup does to a thread in its phase what it does to its semaphore. -/
theorem semaphore?_wake (x : Phase) : x.wake.semaphore? = x.semaphore?.map Semaphore.wake := by
  cases x <;> rfl

theorem run_wakeups (x : Phase) (n : Nat) :
    x.run (List.replicate n .wakeup) = some (wake^[n] x) := by
  induction n generalizing x with
  | zero => rfl
  | succ n ih =>
      rw [List.replicate_succ, run, after_wakeup, Option.bind_some, ih, Function.iterate_succ_apply]

theorem semaphore?_wakes (x : Phase) (n : Nat) :
    (wake^[n] x).semaphore? = x.semaphore?.map (Semaphore.wake^[n]) := by
  induction n generalizing x with
  | zero => simp
  | succ n ih =>
      rw [Function.iterate_succ_apply, ih, semaphore?_wake, Option.map_map, Function.iterate_succ]

theorem isAwake_wakes (x : Phase) (n : Nat) : (wake^[n] x).isAwake = x.isAwake := by
  induction n generalizing x with
  | zero => rfl
  | succ n ih => rw [Function.iterate_succ_apply, ih, isAwake_wake]

theorem wakes_unborn (n : Nat) : wake^[n] unborn = unborn := by
  induction n with
  | zero => rfl
  | succ n ih => exact ih

/-! ## The beginning and the end -/

theorem ne_unborn_of_after :
    x.after σ = some y → x ≠ unborn ∨ σ = .start → y ≠ unborn := by
  intro h
  rcases x with _ | (_ | _) | _ | _ | _ <;> cases σ <;> cases h <;> decide +revert

theorem run_ne_unborn (h : x.run σs = some y) (hx : x ≠ unborn ∨ .start ∈ σs) : y ≠ unborn := by
  induction σs generalizing x with
  | nil =>
      obtain rfl : x = y := Option.some.inj h
      exact hx.resolve_right List.not_mem_nil
  | cons σ σs ih =>
      obtain ⟨z, hz, hrun⟩ := run_cons h
      refine ih hrun ?_
      rcases hx with hx | hx
      · exact .inl (ne_unborn_of_after hz (.inl hx))
      · rcases List.mem_cons.mp hx with hσ | hlater
        · exact .inl (ne_unborn_of_after hz (.inr hσ.symm))
        · exact .inr hlater

theorem eq_unborn_of_after : unborn.after σ = some y → σ ≠ .start → y = unborn := by
  intro h
  cases σ <;> cases h <;> decide

/-- Who was never started is unborn. -/
theorem run_unborn_of_not_mem (h : unborn.run σs = some y) (hσs : .start ∉ σs) : y = unborn := by
  induction σs with
  | nil => exact (Option.some.inj h).symm
  | cons σ σs ih =>
      obtain ⟨z, hz, hrun⟩ := run_cons h
      obtain ⟨hσ, hlater⟩ := List.ne_and_not_mem_of_not_mem_cons hσs
      obtain rfl : z = unborn := eq_unborn_of_after hz (Ne.symm hσ)
      exact ih hrun hlater

/-- A thread is unborn exactly as long as it has not started. -/
theorem eq_unborn_iff (h : unborn.run σs = some y) : y = unborn ↔ .start ∉ σs :=
  ⟨fun hy hσs => run_ne_unborn h (.inr hσs) hy, run_unborn_of_not_mem h⟩

theorem after_eq_gone_iff : x.after σ = some y → (y = gone ↔ x = gone ∨ σ = .leave) := by
  intro h
  rcases x with _ | (_ | _) | _ | _ | _ <;> cases σ <;> cases h <;> decide +revert

/-- A thread is gone exactly when it has left. -/
theorem eq_gone_iff (h : x.run σs = some y) : y = gone ↔ x = gone ∨ .leave ∈ σs := by
  induction σs generalizing x with
  | nil =>
      obtain rfl : x = y := Option.some.inj h
      simp
  | cons σ σs ih =>
      obtain ⟨z, hz, hrun⟩ := run_cons h
      rw [ih hrun, after_eq_gone_iff hz, List.mem_cons, or_assoc, eq_comm (a := σ)]

/-! ## Consumption -/

theorem isPending_of_after :
    x.after σ = some y → σ ≠ .wakeup → y.isPending = true → x.isPending = true := by
  intro h
  rcases x with _ | (_ | _) | _ | _ | _ <;> cases σ <;> cases h <;> decide +revert

/-- Only a wakeup makes one pending. -/
theorem isPending_of_run (h : x.run σs = some y) (hσs : .wakeup ∉ σs) (hy : y.isPending = true) :
    x.isPending = true := by
  induction σs generalizing x with
  | nil =>
      obtain rfl : x = y := Option.some.inj h
      exact hy
  | cons σ σs ih =>
      obtain ⟨z, hz, hrun⟩ := run_cons h
      obtain ⟨hσ, hlater⟩ := List.ne_and_not_mem_of_not_mem_cons hσs
      exact isPending_of_after hz (Ne.symm hσ) (ih hrun hlater)

theorem isPending_of_consumes : x.consumes σ = true → σ ≠ .wakeup → x.isPending = true := by
  rcases x with _ | (_ | _) | _ | _ | _ <;> cases σ <;> decide +revert

theorem isPending_after_consumes :
    x.consumes σ = true → x.after σ = some y → y.isPending = false := by
  intro h
  rcases x with _ | (_ | _) | _ | _ | _ <;> cases σ <;> cases h <;> decide +revert

/-- From a phase without a pending wakeup on, whatever consumes a wakeup is preceded by one, or is
one. -/
theorem wakeup_mem_of_consumes (h : x.run σs = some y) (hx : x.isPending = false)
    (hσ : y.consumes σ = true) : .wakeup ∈ σs ++ [σ] := by
  by_contra hnot
  rw [List.mem_append, not_or, List.mem_singleton] at hnot
  have hy := isPending_of_consumes hσ (Ne.symm hnot.2)
  exact absurd (hx.symm.trans (isPending_of_run h hnot.1 hy)) (by simp)

/-- After the cues `σs` of a thread's life, the cue `σ` consumes a wakeup. -/
def ConsumesAfter (σs : List Cue) (σ : Cue) : Prop :=
  ∃ x, unborn.run σs = some x ∧ x.consumes σ = true

/-- The first consumption is one of a wakeup that was issued. -/
theorem ConsumesAfter.wakeup_mem (h : ConsumesAfter σs σ) : .wakeup ∈ σs ++ [σ] := by
  obtain ⟨x, hrun, hx⟩ := h
  exact wakeup_mem_of_consumes hrun rfl hx

/-- Of two consumptions the later one is of a wakeup that was issued after the earlier one. -/
theorem ConsumesAfter.wakeup_mem_between {ρ : Cue} (h : ConsumesAfter σs ρ)
    (h' : ConsumesAfter (σs ++ ρ :: τs) σ) : .wakeup ∈ τs ++ [σ] := by
  obtain ⟨x, hrun, hx⟩ := h
  obtain ⟨z, hrun', hz⟩ := h'
  obtain ⟨x', hx', hlater⟩ := exists_of_run_append hrun'
  obtain rfl : x = x' := Option.some.inj (hrun.symm.trans hx')
  obtain ⟨y, hy, hbetween⟩ := run_cons hlater
  exact wakeup_mem_of_consumes hbetween (isPending_after_consumes hx hy) hz

theorem isPending_stays : x.after σ = some y → σ ≠ .stop → σ ≠ .leave →
    x.isPending = true → y.isPending = true := by
  intro h
  rcases x with _ | (_ | _) | _ | _ | _ <;> cases σ <;> cases h <;> decide +revert

/-- A pending wakeup stays pending until the thread stops or leaves. -/
theorem isPending_stays_run (h : x.run σs = some y) (hstop : .stop ∉ σs) (hleave : .leave ∉ σs)
    (hx : x.isPending = true) : y.isPending = true := by
  induction σs generalizing x with
  | nil =>
      obtain rfl : x = y := Option.some.inj h
      exact hx
  | cons σ σs ih =>
      obtain ⟨z, hz, hrun⟩ := run_cons h
      obtain ⟨hstop', hstops⟩ := List.ne_and_not_mem_of_not_mem_cons hstop
      obtain ⟨hleave', hleaves⟩ := List.ne_and_not_mem_of_not_mem_cons hleave
      exact ih hrun hstops hleaves (isPending_stays hz (Ne.symm hstop') (Ne.symm hleave') hx)

/-- A wakeup of a live thread ends its suspension, or is pending. -/
theorem asleep_or_isPending_wake : x.isLive = true → x = asleep ∨ x.wake.isPending = true := by
  cases x <;> decide +revert

/-- A wakeup of a live thread is consumed at once, or stays pending until the thread stops or
leaves. -/
theorem consumed_or_pending (h : x.run (σs ++ .wakeup :: τs) = some z)
    (hlive : ∀ y, x.run σs = some y → y.isLive = true) (hstop : .stop ∉ τs)
    (hleave : .leave ∉ τs) :
    (∃ y, x.run σs = some y ∧ y.consumes .wakeup = true) ∨ z.isPending = true := by
  obtain ⟨y, hy, hlater⟩ := exists_of_run_append h
  obtain ⟨y', hy', hrest⟩ := run_cons hlater
  obtain rfl : y.wake = y' := Option.some.inj ((after_wakeup y).symm.trans hy')
  rcases asleep_or_isPending_wake (hlive y hy) with rfl | hpending
  · exact .inl ⟨_, hy, rfl⟩
  · exact .inr (isPending_stays_run hrest hstop hleave hpending)

/-- A thread is live from its start to its leaving. -/
theorem isLive_iff (h : unborn.run σs = some y) :
    y.isLive = true ↔ .start ∈ σs ∧ .leave ∉ σs := by
  have hunborn := eq_unborn_iff h
  have hgone := eq_gone_iff h
  cases y <;> simp_all [isLive, semaphore?]

/-! ## Returns -/

theorem after_returns : x.after σ = some y →
    (x.returns σ).toNat + y.isRoused.toNat = (x.consumes σ).toNat + x.isRoused.toNat := by
  intro h
  rcases x with _ | (_ | _) | _ | _ | _ <;> cases σ <;> cases h <;> decide +revert

/-- Each suspension that has returned has consumed a wakeup of its own, and so has the one that a
roused thread is on its way out of. -/
theorem tally_returns (h : x.run σs = some y) : tally returns x σs + y.isRoused.toNat =
    tally consumes x σs + x.isRoused.toNat := by
  induction σs generalizing x with
  | nil =>
      obtain rfl : x = y := Option.some.inj h
      rfl
  | cons σ σs ih =>
      obtain ⟨z, hz, hrun⟩ := run_cons h
      have hstep := after_returns hz
      have hrest := ih hrun
      simp only [tally, hz, Option.map_some, Option.getD_some]
      omega

end Phase

end Baton
