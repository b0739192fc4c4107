import Baton.Proofs.Workload.Books
import Baton.Proofs.Workload.Claims
import Baton.Proofs.Workload.Placed
import Mathlib.Data.Prod.Lex

/-!
# Balanced workloads: threads at their points

`AtPoints` says of a machine that each of its threads is at a certain point: the stacks, the
scheduler, the objects and the memory are as these points tell. `Onward` says of a later machine
that its threads are at points closer to the end. There are two reasons to be closer: less work is
left, or as much work and less alertness, since a thread that was woken in vain has suspended again.
The search for the next thread counts last.
-/

namespace Baton

namespace Balanced

open Function (update)
open Machine (SameThreads)

/-- The part of a thread that the main thread deals with. -/
inductive Stage where
  | unborn (todo : List Section)
  | spawning (started : Nat)
  | working
  | joining (joined : Nat)
  | awaiting (joined : Nat)
  | draining
  | finished

/-- The stage of a thread at a point. -/
def Point.stage : Point → Stage
  | unborn todo => .unborn todo
  | spawning c _ => .spawning c
  | joining c => .joining c
  | awaiting c => .awaiting c
  | draining => .draining
  | finished => .finished
  | _ => .working

namespace Stage

/-- How many threads have been started when the main thread is at a stage. -/
def started (n : Nat) : Stage → Nat
  | spawning c => c
  | _ => n

/-- How many handles have been taken when the main thread is at a stage. -/
def joined (n : Nat) : Stage → Nat
  | joining c => c
  | awaiting c => c + 1
  | draining | finished => n
  | _ => 0

/-- Whether a thread other than the main one may be at the stage. -/
def isWorker : Stage → Bool
  | unborn _ | working | finished => true
  | _ => false

/-- Whether the main thread may be at the stage. -/
def Leads (n : Nat) : Stage → Prop
  | unborn _ => False
  | spawning c | joining c => c ≤ n
  | awaiting c => c < n
  | _ => True

end Stage

theorem Point.isWorking_iff {x : Point} : x.isWorking = true ↔ x.stage = .working := by
  cases x <;> simp [isWorking, stage]

/-- Another thread than the main one is going through its sections as long as it lives. -/
theorem Point.isWorking_of_isWorker {x : Point} (hworker : x.stage.isWorker = true)
    (halive : x.isAlive = true) : x.isWorking = true := by
  cases x with
  | unborn | finished => cases halive
  | spawning | joining | awaiting | draining => cases hworker
  | _ => rfl

theorem Point.isAlive_eq_of_stage {x y : Point} (h : x.stage = y.stage) :
    x.isAlive = y.isAlive := by
  cases x <;> cases y <;> first | rfl | cases h

variable {own : List Section} {others : List (List Section)} {p p' : ThreadId → Point}
  {m m' : Machine} {me t : ThreadId} {q : Point} {r : Reply} {k : Nat} {e : ErrorText}

/-- The threads are at their points, and nobody else has a part in the workload. -/
structure Staged (own : List Section) (others : List (List Section)) (p : ThreadId → Point)
    (m : Machine) : Prop extends
    m.Placed (fun t x => x.stack others.length t) Point.isAlive Point.canStop Point.isTold
      (program own others).code p where
  stranger : ∀ t, t ∉ crew others.length → p t = .finished

/-- What the main thread has when it comes to a stage: it has the handles of all threads that it has
started and not joined, and in the end an outcome. -/
structure Stage.Entered (n : Nat) (s : Stage) (m : Machine) : Prop where
  leads : s.Leads n
  handles : ∀ i, s.joined n ≤ i → i < s.started n → spawned i ∈ m.handles
  mainOutcome : s = .draining ∨ s = .finished → ∃ k, m.mainOutcome = some (.finished k)

/-- The main thread starts the others in order, and joins them in the same order. -/
structure Led (others : List (List Section)) (p : ThreadId → Point) (m : Machine) : Prop where
  ids : m.sched.ids = ⟨.first, (p .first).stage.started others.length + 1⟩
  entered : (p .first).stage.Entered others.length m
  worker : ∀ t, t ≠ .first → (p t).stage.isWorker = true
  unborn : ∀ i (hi : i < others.length), (p .first).stage.started others.length ≤ i →
    (p (spawned i)).stage = .unborn others[i]
  born : ∀ i, i < (p .first).stage.started others.length →
    ∀ todo, (p (spawned i)).stage ≠ .unborn todo
  outcomes : ∀ i, i < others.length → (p (spawned i)).stage = .finished →
    ∃ k, m.outcomes.get? (spawned i) = some (.finished k)
  going : (p .first).isAlive = true ∨ m.sched.turn = .over

/-- The threads of a workload are at their points. -/
structure AtPoints (own : List Section) (others : List (List Section)) (p : ThreadId → Point)
    (m : Machine) : Prop where
  staged : Staged own others p m
  led : Led others p m
  claims : Claims p m
  books : Books others.length (own :: others).flatten p m.memory

/-! ## Closer to the end -/

/-- The work that all threads have before them. -/
def workLeft (n : Nat) (p : ThreadId → Point) : Nat := ∑ t ∈ crew n, (p t).work n t

/-- The alertness of all threads. -/
def alertness (n : Nat) (m : Machine) : Nat := ∑ t ∈ crew n, m.sched.alertness t

/-- Whether the next thread is looked for. -/
def searching (m : Machine) : Nat :=
  match m.sched.turn with
  | .seeking _ => 1
  | _ => 0

/-- How far a machine is from the end. -/
def distance (n : Nat) (p : ThreadId → Point) (m : Machine) : ℕ ×ₗ ℕ ×ₗ ℕ :=
  toLex (workLeft n p, toLex (alertness n m, searching m))

/-- Whether a thread runs, the next thread is looked for, or the run is over. -/
def Steady (turn : Turn) : Prop := turn = .over ∨ ∃ t, turn = .held t ∨ turn = .seeking t

/-- The threads have come to points closer to the end. -/
def Onward (own : List Section) (others : List (List Section)) (p : ThreadId → Point) (m : Machine)
    (m' : Machine) : Prop :=
  ∃ p', AtPoints own others p' m' ∧ Steady m'.sched.turn ∧
    distance others.length p' m' < distance others.length p m

theorem distance_lt_of_work {n : Nat} (h : workLeft n p' < workLeft n p) :
    distance n p' m' < distance n p m :=
  Prod.Lex.toLex_lt_toLex.mpr (.inl h)

theorem distance_lt_of_alertness {n : Nat} (hwork : workLeft n p' = workLeft n p)
    (h : alertness n m' < alertness n m) : distance n p' m' < distance n p m :=
  Prod.Lex.toLex_lt_toLex.mpr (.inr ⟨hwork, Prod.Lex.toLex_lt_toLex.mpr (.inl h)⟩)

theorem distance_lt_of_searching {n : Nat} (hwork : workLeft n p' = workLeft n p)
    (halert : alertness n m' = alertness n m) (h : searching m' < searching m) :
    distance n p' m' < distance n p m :=
  Prod.Lex.toLex_lt_toLex.mpr
    (.inr ⟨hwork, Prod.Lex.toLex_lt_toLex.mpr (.inr ⟨halert, h⟩)⟩)

/-- Less work is left when one thread has less work. -/
theorem workLeft_update {n : Nat} (hme : me ∈ crew n) (h : q.work n me < (p me).work n me) :
    workLeft n (update p me q) < workLeft n p := by
  apply Finset.sum_lt_sum
  · intro t _
    by_cases ht : t = me
    · subst ht
      rw [Function.update_self]
      exact Nat.le_of_lt h
    · rw [Function.update_of_ne ht]
  · refine ⟨me, hme, ?_⟩
    rwa [Function.update_self]

/-- A running thread that suspends makes all threads together less alert. -/
theorem alertness_stop {n : Nat} {s : Sched} (hme : me ∈ crew n) (hrun : s.isRunning me = true)
    (hsame : ∀ t, s.alertness t = m.sched.alertness t) (hsched : m'.sched = s.stop me) :
    alertness n m' < alertness n m := by
  have hself := Sched.alertness_stop_self hrun
  apply Finset.sum_lt_sum
  · intro t _
    rw [hsched, ← hsame]
    by_cases ht : t = me
    · subst ht
      exact Nat.le_of_lt hself
    · exact Nat.le_of_eq (Sched.alertness_stop_other ht)
  · refine ⟨me, hme, ?_⟩
    rw [hsched, ← hsame]
    exact hself

theorem steady_stop {s : Sched} (h : s.turn = .held me) : Steady (s.stop me).turn := by
  rcases Sched.turn_stop h with hturn | hturn
  · exact .inr ⟨me, .inr hturn⟩
  · exact .inr ⟨me, .inl hturn⟩

/-! ## Moves -/

theorem AtPoints.mem_crew (h : AtPoints own others p m) (hme : (p me).isAlive = true) :
    me ∈ crew others.length := by
  by_contra hnot
  rw [h.staged.stranger me hnot] at hme
  cases hme

/-- The thread that has the turn is live. -/
theorem AtPoints.isAlive_of_held (h : AtPoints own others p m) (hc : m.sched.Coherent)
    (hheld : m.sched.turn = .held me) : (p me).isAlive = true := by
  rw [← h.staged.live]
  exact Sched.isLive_of_isRunning (hc.isRunning_of_held hheld)

/-- The part of a thread's own that its point does not tell may be left open. -/
theorem Onward.of_withThread (h : Onward own others p m
    (m'.withThread me (m'.threads.get me))) : Onward own others p m m' := by
  obtain ⟨p', h', hsteady, hless⟩ := h
  refine ⟨p', ?_, hsteady, hless⟩
  exact {
    staged := ⟨h'.staged.of_withThread, h'.staged.stranger⟩
    led := { h'.led with entered := { h'.led.entered with } }
    claims := { h'.claims with }
    books := h'.books }

/-- To show where the running thread comes to, its own part may be looked at for itself. -/
theorem AtPoints.attains (h : AtPoints own others p m) (hc : m.sched.Coherent)
    (hheld : m.sched.turn = .held me) (hstack : (p me).stack others.length me ≠ [])
    (hgo : ∀ r k e, ((p me).isTold = true → r = .null) →
      (m.withThread me ⟨(p me).stack others.length me, r, k, e⟩).Attains (Onward own others p m)) :
    m.Attains (Onward own others p m) := by
  obtain ⟨r, k, e, hth, hreply⟩ := h.staged.thread me (h.isAlive_of_held hc hheld)
  apply Machine.attains_of_thread hheld hth hstack _ (hgo r k e hreply)
  rw [← hth]
  exact Onward.of_withThread

theorem Stage.Entered.congr {n : Nat} {s : Stage} (h : s.Entered n m)
    (hhandles : m'.handles = m.handles) (hmain : m'.mainOutcome = m.mainOutcome) :
    s.Entered n m' where
  leads := h.leads
  handles := by
    rw [hhandles]
    exact h.handles
  mainOutcome := by
    rw [hmain]
    exact h.mainOutcome

/-- The main thread is not concerned with what a thread does in its sections. -/
theorem Led.move (h : Led others p m) (hstage : ∀ t, (p' t).stage = (p t).stage)
    (hids : m'.sched.ids = m.sched.ids) (hhandles : m'.handles = m.handles)
    (houtcomes : m'.outcomes = m.outcomes) (hmain : m'.mainOutcome = m.mainOutcome)
    (hover : m.sched.turn ≠ .over) : Led others p' m' where
  ids := by
    rw [hids, hstage]
    exact h.ids
  entered := by
    rw [hstage]
    exact h.entered.congr hhandles hmain
  worker t ht := by
    rw [hstage]
    exact h.worker t ht
  unborn i hi := by
    rw [hstage, hstage]
    exact h.unborn i hi
  born i := by
    rw [hstage, hstage]
    exact h.born i
  outcomes i hi := by
    rw [hstage, houtcomes]
    exact h.outcomes i hi
  going := by
    rw [Point.isAlive_eq_of_stage (hstage .first)]
    exact .inl (h.going.resolve_right hover)

/-- One thread that lives comes to another point at which it lives. -/
theorem Staged.move (h : Staged own others p m) (halive : (p me).isAlive = true)
    (hq : q.isAlive = true) (hhost : m'.host = m.host) (hcode : m'.code = m.code)
    (hthreads : ∀ t, t ≠ me → m'.threads.get t = m.threads.get t)
    (hmild : Sched.Mild (· ≠ me) m.sched m'.sched)
    (hstop : m'.sched.isStopped me = true → q.canStop = true)
    (hreply : q.isTold = true → r = .null) :
    Staged own others (update p me q) (m'.withThread me ⟨q.stack others.length me, r, k, e⟩) where
  toPlaced := h.toPlaced.move halive hq hhost hcode hthreads hmild hstop hreply
  stranger t ht := by
    have hne : t ≠ me := by
      rintro rfl
      rw [h.stranger t ht] at halive
      cases halive
    rw [Function.update_of_ne hne]
    exact h.stranger t ht

/-- A thread goes on with its sections. -/
theorem AtPoints.worked (h : AtPoints own others p m) (hp : (p me).isWorking = true)
    (hq : q.isWorking = true) (hs : SameThreads m m')
    (hmild : Sched.Mild (· ≠ me) m.sched m'.sched)
    (hstop : m'.sched.isStopped me = true → q.canStop = true)
    (hreply : q.isTold = true → r = .null) (hover : m.sched.turn ≠ .over)
    (hclaims : Claims (update p me q) m')
    (hbooks : Books others.length (own :: others).flatten (update p me q) m'.memory) :
    AtPoints own others (update p me q)
      (m'.withThread me ⟨q.stack others.length me, r, k, e⟩) where
  staged := h.staged.move (Point.isAlive_of_isWorking hp) (Point.isAlive_of_isWorking hq) hs.host
    hs.code (fun t _ => by rw [hs.threads]) hmild hstop hreply
  led := by
    have hstage : q.stage = (p me).stage :=
      (Point.isWorking_iff.mp hq).trans (Point.isWorking_iff.mp hp).symm
    exact h.led.move (apply_update Point.stage hstage) hmild.ids hs.handles hs.outcomes
      hs.mainOutcome hover
  claims := { hclaims with }
  books := hbooks

/-- A thread has done a piece of its work. -/
theorem AtPoints.onward (h' : AtPoints own others (update p me q) m')
    (hme : me ∈ crew others.length)
    (hless : q.work others.length me < (p me).work others.length me)
    (hsteady : Steady m'.sched.turn) : Onward own others p m m' :=
  ⟨_, h', hsteady, distance_lt_of_work (workLeft_update hme hless)⟩

end Balanced

end Baton
