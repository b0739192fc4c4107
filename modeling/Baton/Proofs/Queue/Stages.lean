import Baton.Proofs.Program.Conditions
import Baton.Proofs.Queue.Books
import Baton.Proofs.Workload.Stages

/-!
# Queue: threads at their points

`AtPoints` says of a machine that each of its threads is at a certain point: the stacks, the
scheduler, the queue and the memory are as these points tell. The part that the main thread deals
with and the claims on the queue are those of a balanced workload. `Onward` says of a later machine
that its threads are at points closer to the end. There are three reasons to be closer: less work is
left, or less of the present rests, or a thread that was woken in vain has suspended again. The
search for the next thread counts last.
-/

namespace Baton

namespace Queue

open Baton.Balanced (crew Led Claims Steady searching)
open Function (update)
open Machine (SameThreads)

variable {n : Nat} {xs : List Int} {pace : Nat → Pace} {p p' : ThreadId → Point} {m m' : Machine}
  {me t : ThreadId} {q x : Point} {r : Reply} {k : Nat} {e : ErrorText}

/-- Threads without sections: to the main thread the consumers are like those. -/
def mates (n : Nat) : List (List Balanced.Section) := List.replicate n []

@[simp] theorem length_mates (n : Nat) : (mates n).length = n := List.length_replicate

@[simp] theorem getElem_mates {i : Nat} (h : i < (mates n).length) : (mates n)[i] = [] :=
  List.getElem_replicate ..

/-- The points of a balanced workload that the threads are at. -/
def skeletons (p : ThreadId → Point) (t : ThreadId) : Balanced.Point := (p t).skeleton

theorem skeletons_update (p : ThreadId → Point) (me : ThreadId) (q : Point) :
    skeletons (update p me q) = update (skeletons p) me q.skeleton := by
  funext t
  rw [skeletons]
  by_cases ht : t = me
  · rw [ht, Function.update_self, Function.update_self]
  · rw [Function.update_of_ne ht, Function.update_of_ne ht, skeletons]

/-- The threads are at their points, nobody else has a part in the program, and the condition is
paired with the queue. -/
structure Staged (n : Nat) (xs : List Int) (pace : Nat → Pace) (p : ThreadId → Point)
    (m : Machine) : Prop extends
    m.Placed (fun t x => x.stack n xs pace t) Point.isAlive Point.canStop (fun _ => false)
      (program n xs pace).code p where
  pairing : m.pairing = [cell]
  stranger : ∀ t, p t = .absent ↔ t ∉ crew n

/-- The threads asleep until the queue is filled or closed. -/
def sleepers (m : Machine) : List ThreadId := (m.rendezvous.get (.cond nonempty)).sleepers

/-- The threads of the program are at their points. -/
structure AtPoints (n : Nat) (xs : List Int) (pace : Nat → Pace) (p : ThreadId → Point)
    (m : Machine) : Prop where
  staged : Staged n xs pace p m
  led : Led (mates n) (skeletons p) m
  claims : Claims (skeletons p) m
  books : Books xs p m.memory
  quiet : (p .first).isQuiet = true → sleepers m = []

/-! ## Closer to the end -/

/-- How many items have not been taken. -/
def untaken (xs : List Int) (mem : Memory) : Nat := xs.length - (taken mem).length

/-- The work that all threads have before them. -/
def workLeft (n : Nat) (xs : List Int) (untaken : Nat) (p : ThreadId → Point) : Nat :=
  ∑ t ∈ crew n, (p t).work n xs untaken

/-- What all threads have before them in their present rests. -/
def leisureLeft (n : Nat) (p : ThreadId → Point) : Nat := ∑ t ∈ crew n, (p t).leisure

/-- How often threads may still suspend before all of them sleep or wait for the queue. A hand-over
of the queue wakes the thread that it is for, so a thread in front of the queue counts as well. -/
def stir (n : Nat) (m : Machine) : Nat :=
  2 * Balanced.alertness n m + (m.mutexes.get (.cell cell)).waiting.length

/-- How far a machine is from the end. -/
def distance (n : Nat) (xs : List Int) (p : ThreadId → Point) (m : Machine) :
    ℕ ×ₗ ℕ ×ₗ ℕ ×ₗ ℕ :=
  toLex (workLeft n xs (untaken xs m.memory) p,
    toLex (leisureLeft n p, toLex (stir n m, searching m)))

/-- The threads have come to points closer to the end. -/
def Onward (n : Nat) (xs : List Int) (pace : Nat → Pace) (p : ThreadId → Point) (m : Machine)
    (m' : Machine) : Prop :=
  ∃ p', AtPoints n xs pace p' m' ∧ Steady m'.sched.turn ∧ distance n xs p' m' < distance n xs p m

theorem distance_lt_of_leisure (hwork : workLeft n xs (untaken xs m'.memory) p' =
    workLeft n xs (untaken xs m.memory) p) (h : leisureLeft n p' < leisureLeft n p) :
    distance n xs p' m' < distance n xs p m :=
  Prod.Lex.toLex_lt_toLex.mpr (.inr ⟨hwork, Prod.Lex.toLex_lt_toLex.mpr (.inl h)⟩)

theorem distance_lt_of_stir (hwork : workLeft n xs (untaken xs m'.memory) p' =
    workLeft n xs (untaken xs m.memory) p) (hleisure : leisureLeft n p' = leisureLeft n p)
    (h : stir n m' < stir n m) : distance n xs p' m' < distance n xs p m :=
  Prod.Lex.toLex_lt_toLex.mpr (.inr ⟨hwork, Prod.Lex.toLex_lt_toLex.mpr
    (.inr ⟨hleisure, Prod.Lex.toLex_lt_toLex.mpr (.inl h)⟩)⟩)

theorem distance_lt_of_searching (hwork : workLeft n xs (untaken xs m'.memory) p' =
    workLeft n xs (untaken xs m.memory) p) (hleisure : leisureLeft n p' = leisureLeft n p)
    (hstir : stir n m' = stir n m) (h : searching m' < searching m) :
    distance n xs p' m' < distance n xs p m :=
  Prod.Lex.toLex_lt_toLex.mpr (.inr ⟨hwork, Prod.Lex.toLex_lt_toLex.mpr
    (.inr ⟨hleisure, Prod.Lex.toLex_lt_toLex.mpr (.inr ⟨hstir, h⟩)⟩)⟩)

/-- A sum over the crew falls when one summand falls and none rises. -/
theorem sum_crew_lt {f g : ThreadId → Nat} (hme : me ∈ crew n) (hle : ∀ t, t ≠ me → g t ≤ f t)
    (hlt : g me < f me) : ∑ t ∈ crew n, g t < ∑ t ∈ crew n, f t := by
  apply Finset.sum_lt_sum
  · intro t _
    by_cases ht : t = me
    · rw [ht]
      exact Nat.le_of_lt hlt
    · exact hle t ht
  · exact ⟨me, hme, hlt⟩

/-- Less work is left when one thread has less work, and no more items are left. -/
theorem distance_lt_of_work (hme : me ∈ crew n)
    (huntaken : untaken xs m'.memory ≤ untaken xs m.memory)
    (h : q.work n xs (untaken xs m'.memory) < (p me).work n xs (untaken xs m.memory)) :
    distance n xs (update p me q) m' < distance n xs p m := by
  apply Prod.Lex.toLex_lt_toLex.mpr
  left
  apply sum_crew_lt hme
  · intro t ht
    rw [Function.update_of_ne ht]
    exact Point.work_mono n xs huntaken _
  · rw [Function.update_self]
    exact h

/-- The same work is left, and one thread has less before it in its rest. -/
theorem distance_lt_of_rest (hme : me ∈ crew n)
    (huntaken : untaken xs m'.memory = untaken xs m.memory)
    (hwork : ∀ i, q.work n xs i = (p me).work n xs i) (h : q.leisure < (p me).leisure) :
    distance n xs (update p me q) m' < distance n xs p m := by
  apply distance_lt_of_leisure
  · rw [workLeft, workLeft, huntaken]
    apply Finset.sum_congr rfl
    intro t _
    exact Balanced.apply_update (Point.work n xs _) (hwork _) t
  · apply sum_crew_lt hme
    · intro t ht
      rw [Function.update_of_ne ht]
    · rw [Function.update_self]
      exact h

/-- A running thread that suspends makes less stir, also if it queues up. -/
theorem stir_stop {s : Sched} (hme : me ∈ crew n) (hrun : s.isRunning me = true)
    (hsame : ∀ t, s.alertness t = m.sched.alertness t) (hsched : m'.sched = s.stop me)
    (hwaiting : (m'.mutexes.get (.cell cell)).waiting.length ≤
      (m.mutexes.get (.cell cell)).waiting.length + 1) : stir n m' < stir n m := by
  have halert : Balanced.alertness n m' < Balanced.alertness n m :=
    Balanced.alertness_stop hme hrun hsame hsched
  rw [stir, stir]
  omega

/-- The same work and the same rests are left, and there is less stir. -/
theorem distance_lt_of_alert (huntaken : untaken xs m'.memory = untaken xs m.memory)
    (hwork : ∀ i, q.work n xs i = (p me).work n xs i) (hleisure : q.leisure = (p me).leisure)
    (h : stir n m' < stir n m) : distance n xs (update p me q) m' < distance n xs p m := by
  apply distance_lt_of_stir
  · rw [workLeft, workLeft, huntaken]
    apply Finset.sum_congr rfl
    intro t _
    exact Balanced.apply_update (Point.work n xs _) (hwork _) t
  · apply Finset.sum_congr rfl
    intro t _
    exact Balanced.apply_update Point.leisure hleisure t
  · exact h

/-! ## Moves -/

theorem isQuiet_update (h : q.isQuiet = (p me).isQuiet) :
    (update p me q .first).isQuiet = (p .first).isQuiet :=
  Balanced.apply_update Point.isQuiet h .first

theorem AtPoints.mem_crew (h : AtPoints n xs pace p m) (hme : (p me).isAlive = true) :
    me ∈ crew n := by
  by_contra hnot
  rw [(h.staged.stranger me).mpr hnot] at hme
  cases hme

/-- A thread keeps its claims when it comes to a point alike. -/
theorem AtPoints.keeps_claims {y : Balanced.Point} (h : AtPoints n xs pace p m) (hp : p me = x)
    (halike : x.skeleton.Alike y) (hmutexes : m'.mutexes = m.mutexes)
    (hlocks : m'.locks = m.locks) :
    Claims (update (skeletons p) me y) m' := by
  apply h.claims.stay hmutexes hlocks
  rw [skeletons, hp]
  exact halike

/-- A thread that has waited for the queue and is its owner comes in. -/
theorem AtPoints.comes_in (h : AtPoints n xs pace p m) (hp : p me = x)
    (hx : x.skeleton = .asking grip []) (howner : (m.mutexes.get (.cell cell)).owner = some me) :
    Claims (update (skeletons p) me (.inside false 0 grip [])) m := by
  apply h.claims.same (fun _ => rfl) (fun _ => rfl)
  · rw [skeletons, hp, hx]
    rfl
  · intro τ hτ
    obtain rfl : Balanced.Target.cell cell = τ := Option.some.inj hτ
    simp [Balanced.holds, howner]

/-- One thread that lives comes to another point at which it lives. -/
theorem Staged.move (h : Staged n xs pace p m) (halive : (p me).isAlive = true)
    (hq : q.isAlive = true) (hhost : m'.host = m.host) (hcode : m'.code = m.code)
    (hpairing : m'.pairing = m.pairing)
    (hthreads : ∀ t, t ≠ me → m'.threads.get t = m.threads.get t)
    (hmild : Sched.Mild (· ≠ me) m.sched m'.sched)
    (hstop : m'.sched.isStopped me = true → q.canStop = true) :
    Staged n xs pace (update p me q) (m'.withThread me ⟨q.stack n xs pace me, r, k, e⟩) where
  toPlaced := h.toPlaced.move halive hq hhost hcode hthreads hmild hstop nofun
  pairing := hpairing.trans h.pairing
  stranger t := by
    by_cases hme : t = me
    · subst hme
      rw [Function.update_self, ← h.stranger]
      have hne : ∀ {y : Point}, y.isAlive = true → y ≠ .absent := by
        rintro y hy rfl
        cases hy
      exact iff_of_false (hne hq) (hne halive)
    · rw [Function.update_of_ne hme]
      exact h.stranger t

/-- The part of a thread's own that its point does not tell may be left open. -/
theorem Onward.of_withThread (h : Onward n xs pace p m
    (m'.withThread me (m'.threads.get me))) : Onward n xs pace p m m' := by
  obtain ⟨p', h', hsteady, hless⟩ := h
  refine ⟨p', ?_, hsteady, hless⟩
  exact {
    staged := ⟨h'.staged.of_withThread, h'.staged.pairing, h'.staged.stranger⟩
    led := { h'.led with entered := { h'.led.entered with } }
    claims := { h'.claims with }
    books := h'.books
    quiet := h'.quiet }

/-- The threads are at their points and `me` runs. -/
structure Running (n : Nat) (xs : List Int) (pace : Nat → Pace) (p : ThreadId → Point)
    (me : ThreadId) (m : Machine) : Prop extends AtPoints n xs pace p m where
  coherent : m.sched.Coherent
  held : m.sched.turn = .held me

namespace Running

/-- The thread that has the turn is live. -/
theorem isAlive (h : Running n xs pace p me m) : (p me).isAlive = true := by
  rw [← h.staged.live]
  exact Sched.isLive_of_isRunning (h.coherent.isRunning_of_held h.held)

theorem mem_crew (h : Running n xs pace p me m) : me ∈ crew n := h.toAtPoints.mem_crew h.isAlive

theorem steady (h : Running n xs pace p me m) : Steady m.sched.turn := .inr ⟨me, .inl h.held⟩

/-- The thread may be looked at for itself. -/
theorem attains (h : Running n xs pace p me m) (hp : p me = x) (hstack : x.stack n xs pace me ≠ [])
    (hgo : ∀ r k e, (m.withThread me ⟨x.stack n xs pace me, r, k, e⟩).Attains
      (Onward n xs pace p m)) : m.Attains (Onward n xs pace p m) := by
  subst hp
  obtain ⟨r, k, e, hth, -⟩ := h.staged.thread me h.isAlive
  apply Machine.attains_of_thread h.held hth hstack _ (hgo r k e)
  rw [← hth]
  exact Onward.of_withThread

/-- A change that spares the thread does not stop it. -/
theorem canStop_of_mild {P : Prop} (h : Running n xs pace p me m)
    (hmild : Sched.Mild (fun _ => True) m.sched m'.sched) :
    m'.sched.isStopped me = true → P := by
  intro hstop
  have hstopped := hmild.stopped me trivial hstop
  rw [Sched.isStopped_eq_false_of_isRunning (h.coherent.isRunning_of_held h.held)] at hstopped
  cases hstopped

/-- The thread comes to another point of the same stage, where it may have suspended. -/
theorem arrives (h : Running n xs pace p me m) (hp : p me = x) (hq : q.isAlive = true)
    (hstage : q.skeleton.stage = x.skeleton.stage) (hs : SameThreads m m')
    (hpairing : m'.pairing = m.pairing) (hmild : Sched.Mild (· ≠ me) m.sched m'.sched)
    (hstop : m'.sched.isStopped me = true → q.canStop = true) (hsteady : Steady m'.sched.turn)
    (hclaims : Claims (update (skeletons p) me q.skeleton) m')
    (hbooks : Books xs (update p me q) m'.memory)
    (hquiet : (update p me q .first).isQuiet = true → sleepers m' = [])
    (hless : distance n xs (update p me q) m' < distance n xs p m) :
    (m'.withThread me ⟨q.stack n xs pace me, r, k, e⟩).Attains (Onward n xs pace p m) := by
  subst hp
  have hstages : ∀ t, (update (skeletons p) me q.skeleton t).stage = (skeletons p t).stage :=
    Balanced.apply_update Balanced.Point.stage hstage
  have hled := h.led.move hstages hmild.ids hs.handles hs.outcomes hs.mainOutcome
    (by simp [h.held])
  rw [← skeletons_update] at hled hclaims
  refine .here ⟨update p me q, ?_, hsteady, hless⟩
  exact {
    staged := h.staged.move h.isAlive hq hs.host hs.code hpairing (fun t _ => by rw [hs.threads])
      hmild hstop
    led := { hled with entered := { hled.entered with } }
    claims := { hclaims with }
    books := hbooks
    quiet := hquiet }

end Running

end Queue

end Baton
