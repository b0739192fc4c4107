import Baton.Proofs.Queue.Stages
import Baton.Proofs.Workload.Sections

/-!
# Queue: rests and visits

What consumers and the main thread have in common: they rest before each spot, and they wait for the
queue until they have it. Each piece ends with the thread closer to the end, or suspended again
after a wakeup in vain.
-/

namespace Baton

namespace Queue

open Baton.Balanced (number Claims Steady)
open Function (update)
open Machine (SameThreads)

variable {n : Nat} {xs : List Int} {pace : Nat → Pace} {p : ThreadId → Point} {m m' : Machine}
  {me : ThreadId} {q x : Point} {r : Reply} {k l : Nat} {e : ErrorText} {s : Spot} {g : Gate}

/-- Only the scheduler, the memory and the log of events differ. -/
structure Aside (m m' : Machine) : Prop extends SameThreads m m' where
  pairing : m'.pairing = m.pairing
  mutexes : m'.mutexes = m.mutexes
  rendezvous : m'.rendezvous = m.rendezvous
  locks : m'.locks = m.locks

theorem Aside.refl (m : Machine) : Aside m m :=
  { SameThreads.refl m with pairing := rfl, mutexes := rfl, rendezvous := rfl, locks := rfl }

namespace Running

/-! ## Moves that leave the queue alone -/

/-- The thread comes to another point, and the queue is as it was. -/
theorem strolls (h : Running n xs pace p me m) (hp : p me = x) (hq : q.isAlive = true)
    (hstage : q.skeleton.stage = x.skeleton.stage) (halike : x.skeleton.Alike q.skeleton)
    (hquiet : q.isQuiet = x.isQuiet) (hs : Aside m m')
    (hmild : Sched.Mild (fun _ => True) m.sched m'.sched) (hsteady : Steady m'.sched.turn)
    (hbooks : Books xs (update p me q) m'.memory)
    (hless : distance n xs (update p me q) m' < distance n xs p m) :
    (m'.withThread me ⟨q.stack n xs pace me, r, k, e⟩).Attains (Onward n xs pace p m) := by
  apply h.arrives hp hq hstage hs.toSameThreads hs.pairing (hmild.mono fun _ _ => trivial)
    (h.canStop_of_mild hmild) hsteady _ hbooks _ hless
  · exact h.keeps_claims hp halike hs.mutexes hs.locks
  · rw [isQuiet_update (by rw [hquiet, hp]), sleepers, hs.rendezvous]
    exact h.quiet

/-- A thread that has rested at a spot comes to one that has fewer spots before it. -/
theorem less_of_rank (h : Running n xs pace p me m) (hp : p me = .resting false 0 s) {s' : Spot}
    (htaken : taken m'.memory = taken m.memory)
    (hrank : s'.rank n xs (untaken xs m.memory) < s.rank n xs (untaken xs m.memory)) :
    distance n xs (update p me (.arriving s')) m' < distance n xs p m := by
  have hsame : untaken xs m'.memory = untaken xs m.memory := by rw [untaken, untaken, htaken]
  apply distance_lt_of_work h.mem_crew (Nat.le_of_eq hsame)
  rw [hsame, hp]
  simp only [Point.work]
  omega

/-! ## Rests -/

/-- The thread is in the rest before a spot, or about to begin it, and goes on with it. -/
theorem rests (h : Running n xs pace p me m) (hp : p me = x)
    (hx : x = .arriving s ∨ ∃ away l, x = .resting away l s) (away : Bool) (l : Nat)
    (hs : Aside m m') (hmild : Sched.Mild (fun _ => True) m.sched m'.sched)
    (hsteady : Steady m'.sched.turn) (hbooks : Books xs (update p me (.resting away l s)) m'.memory)
    (hless : distance n xs (update p me (.resting away l s)) m' < distance n xs p m) :
    (m'.withThread me ⟨(Point.resting away l s).stack n xs pace me, r, k, e⟩).Attains
      (Onward n xs pace p m) := by
  have hsame : (Point.resting away l s).skeleton = x.skeleton ∧
      (Point.resting away l s).isQuiet = x.isQuiet := by
    rcases hx with rfl | ⟨away', l', rfl⟩ <;> exact ⟨rfl, by cases s <;> rfl⟩
  have halive : (Point.resting away l s).isAlive = true := by
    rw [Point.isAlive, hsame.1, ← hp]
    exact h.isAlive
  refine h.strolls hp halive ?_ ?_ hsame.2 hs hmild hsteady hbooks hless
  · rw [hsame.1]
  · rw [hsame.1]
    exact ⟨rfl, rfl, rfl, rfl⟩

/-- A thread begins a rest. -/
theorem begins_rest (h : Running n xs pace p me m) (hp : p me = .arriving s) :
    m.Attains (Onward n xs pace p m) := by
  apply h.attains hp (by simp [Point.stack, Point.tasks, pause, rest])
  intro r k e
  apply Machine.attains_update h.held h.staged.host
  refine h.rests hp (.inl rfl) false
    (pace (number me) (m.memory.var (stepVar (number me))).toNat) ?_ (.refl _ _) h.steady ?_ ?_
  · exact { Aside.refl m with }
  · apply h.books.settle
    · rw [hp]
      rfl
    · rfl
  · apply distance_lt_of_work h.mem_crew (Nat.le_refl _)
    rw [hp]
    exact Nat.lt_succ_self _

/-- A resting thread yields. -/
theorem goes_away (h : Running n xs pace p me m) (hp : p me = .resting false (l + 1) s) :
    m.Attains (Onward n xs pace p m) := by
  have hleft := h.books.rest me (l + 1) (by rw [hp]; rfl)
  apply h.attains hp (by simp [Point.stack, Point.tasks])
  intro r k e
  apply Machine.attains_whilst h.held h.staged.host
  · rw [isResting, hleft]
    simp
  apply Machine.attains_update h.held h.staged.host
  apply Machine.attains_yield (by exact h.held) (by exact h.staged.host)
  refine h.rests hp (.inr ⟨_, _, rfl⟩) true l ?_ (Sched.mild_yieldNow _ _) (.inr ⟨me, .inr rfl⟩)
    ?_ ?_
  · exact { Aside.refl m with }
  · apply h.books.spend
    · rw [hp]
      rfl
    · rw [hp]
      rfl
    · rfl
  · refine distance_lt_of_rest h.mem_crew rfl ?_ ?_
    · rw [hp]
      exact fun _ => rfl
    · rw [hp]
      simp [Point.leisure]
      omega

/-- A resting thread comes back from a yield. -/
theorem comes_back (h : Running n xs pace p me m) (hp : p me = .resting true l s) :
    m.Attains (Onward n xs pace p m) := by
  apply h.attains hp (by simp [Point.stack, Point.tasks, Balanced.yielded])
  intro r k e
  apply Machine.attains_answer h.held
  apply Machine.attains_report "yield" h.held
  refine h.rests hp (.inr ⟨_, _, rfl⟩) false l ?_ (.refl _ _) h.steady ?_ ?_
  · exact { Aside.refl m with }
  · apply h.books.stay
    · rw [hp]
      rfl
    · intro l hl
      exact h.books.rest me l (by rw [hp]; exact hl)
  · refine distance_lt_of_rest h.mem_crew rfl ?_ ?_
    · rw [hp]
      exact fun _ => rfl
    · rw [hp]
      simp [Point.leisure]

/-- A thread that has rested does what its spot says. -/
theorem rested (h : Running n xs pace p me m) (hp : p me = .resting false 0 s)
    (hgo : ∀ r k e, (m.withThread me
      ⟨s.tasks n xs (number me) (pace (number me)), r, k, e⟩).Attains (Onward n xs pace p m)) :
    m.Attains (Onward n xs pace p m) := by
  have hleft := h.books.rest me 0 (by rw [hp]; rfl)
  apply h.attains hp (by simp [Point.stack, Point.tasks])
  intro r k e
  apply Machine.attains_whilst_end h.held h.staged.host
  · rw [isResting, hleft]
    rfl
  · exact hgo r k e

/-- A thread goes on to the rest before another spot, and the memory stays as it is. -/
theorem goes_on (h : Running n xs pace p me m) (hp : p me = x) (s : Spot)
    (hstage : s.skeleton.stage = x.skeleton.stage) (haccount : some (s.account xs) = x.account xs)
    (hquiet : (Point.arriving s).isQuiet = x.isQuiet) (hs : SameThreads m m')
    (hpairing : m'.pairing = m.pairing) (hmemory : m'.memory = m.memory)
    (hsleepers : sleepers m = [] → sleepers m' = [])
    (hmild : Sched.Mild (fun _ => True) m.sched m'.sched) (hheld : m'.sched.turn = .held me)
    (hclaims : Claims (update (skeletons p) me s.skeleton) m')
    (hless : 2 * s.rank n xs (untaken xs m.memory) + 1 < x.work n xs (untaken xs m.memory)) :
    (m'.withThread me ⟨(Point.arriving s).stack n xs pace me, r, k, e⟩).Attains
      (Onward n xs pace p m) := by
  refine h.arrives hp (by cases s <;> rfl) hstage hs hpairing (hmild.mono fun _ _ => trivial)
    (h.canStop_of_mild hmild) (.inr ⟨me, .inl hheld⟩) hclaims ?_ ?_ ?_
  · rw [hmemory]
    apply h.books.stay (by rw [hp]; exact haccount)
    exact fun l hl => by cases hl
  · rw [isQuiet_update (by rw [hquiet, hp])]
    exact fun hq => hsleepers (h.quiet hq)
  · apply distance_lt_of_work h.mem_crew
    · rw [hmemory]
    · rw [hmemory, hp]
      exact hless

/-! ## Waiting for the queue -/

/-- A thread gets the queue that it has asked for. -/
theorem granted (h : Running n xs pace p me m) (hp : p me = x)
    (hx : x = .resting false 0 (.asks g) ∨ x = .asking g) (hs : SameThreads m m')
    (hpairing : m'.pairing = m.pairing) (hrendez : m'.rendezvous = m.rendezvous)
    (hmemory : m'.memory = m.memory) (hsched : m'.sched = m.sched)
    (hclaims : Claims (update (skeletons p) me (.inside false 0 grip [])) m') :
    (m'.withThread me ⟨g.door n (number me) (pace (number me)), r, k, e⟩).Attains
      (Onward n xs pace p m) := by
  have hheld : m'.sched.turn = .held me := by rw [hsched, h.held]
  have hskeleton : g.spot.skeleton = .inside false 0 grip [] := by cases g <;> rfl
  have hstack : (paced (number me) (pace (number me)) (g.body (number me))).map Task.instr ++
      [.drop (.cell cell), .answer .null, .report "end"] ++
        (pause (number me) (pace (number me)) ++ g.after n (number me) (pace (number me))) =
      (Point.arriving g.spot).stack n xs pace me := by
    rw [List.append_assoc]
    exact (paced_tasks ..).trans (by cases g <;> rfl)
  apply Machine.attains_answer hheld
  apply Machine.attains_enter hheld rfl
  rw [hstack]
  rw [← hskeleton] at hclaims
  refine h.goes_on hp g.spot ?_ ?_ ?_ { hs with } hpairing hmemory ?_ ?_ hheld { hclaims with } ?_
  · rcases hx with rfl | rfl <;> cases g <;> rfl
  · rcases hx with rfl | rfl <;> cases g <;> rfl
  · rcases hx with rfl | rfl <;> cases g <;> rfl
  · show _ → sleepers m' = []
    rw [sleepers, sleepers, hrendez]
    exact id
  · show Sched.Mild _ m.sched m'.sched
    rw [hsched]
    exact .refl _ _
  · rcases hx with rfl | rfl <;> cases g <;> simp [Point.work, Gate.spot, Spot.rank] <;> omega

/-- A thread suspends and has as much work before it as before. Either its rest is at its end, or
there is less stir. -/
theorem suspends (h : Running n xs pace p me m) (hp : p me = x) (hq : q.isAlive = true)
    (hstage : q.skeleton.stage = x.skeleton.stage) (haccount : q.account xs = x.account xs)
    (hquiet : q.isQuiet = x.isQuiet) (hrest : q.rest? = none) (hcan : q.canStop = true)
    (hs : SameThreads m m') (hpairing : m'.pairing = m.pairing) (hmemory : m'.memory = m.memory)
    (hmild : Sched.Mild (· ≠ me) m.sched m'.sched) (hsteady : Steady m'.sched.turn)
    (hsleepers : (p .first).isQuiet = true → sleepers m = [] → sleepers m' = [])
    (hclaims : Claims (update (skeletons p) me q.skeleton) m')
    (hwork : ∀ i, q.work n xs i = x.work n xs i)
    (hless : q.leisure < x.leisure ∨ q.leisure = x.leisure ∧ stir n m' < stir n m) :
    (m'.withThread me ⟨q.stack n xs pace me, r, k, e⟩).Attains (Onward n xs pace p m) := by
  apply h.arrives hp hq hstage hs hpairing hmild (fun _ => hcan) hsteady hclaims
  · rw [hmemory]
    apply h.books.stay (by rw [haccount, hp])
    simp [hrest]
  · rw [isQuiet_update (by rw [hquiet, hp])]
    exact fun hq => hsleepers hq (h.quiet hq)
  · subst hp
    rcases hless with hless | ⟨heq, hless⟩
    · exact distance_lt_of_rest h.mem_crew (by rw [hmemory]) hwork hless
    · exact distance_lt_of_alert (by rw [hmemory]) hwork heq hless

/-- A thread that was woken in vain suspends again at the point where it is. -/
theorem lingers (h : Running n xs pace p me m) (hp : p me = q) (hcan : q.canStop = true)
    (hs : Aside m m') (hmemory : m'.memory = m.memory)
    (hmild : Sched.Mild (· ≠ me) m.sched m'.sched) (hsteady : Steady m'.sched.turn)
    (hless : stir n m' < stir n m) :
    (m'.withThread me ⟨q.stack n xs pace me, r, k, e⟩).Attains (Onward n xs pace p m) := by
  have hrest : q.rest? = none := by
    cases q <;> first | rfl | cases hcan
  have hclaims : Claims (update (skeletons p) me q.skeleton) m' :=
    h.keeps_claims hp ⟨rfl, rfl, rfl, rfl⟩ hs.mutexes hs.locks
  refine h.suspends hp (hp ▸ h.isAlive) rfl rfl rfl hrest hcan hs.toSameThreads hs.pairing hmemory
    hmild hsteady ?_ hclaims (fun _ => rfl) (.inr ⟨rfl, hless⟩)
  rw [sleepers, sleepers, hs.rendezvous]
  exact fun _ hnil => hnil

/-- The thread that has the turn makes less stir when it suspends, also if it queues up. -/
theorem stir_stop (h : Running n xs pace p me m) (hsched : m'.sched = m.sched.stop me)
    (hwaiting : (m'.mutexes.get (.cell cell)).waiting.length ≤
      (m.mutexes.get (.cell cell)).waiting.length + 1) : stir n m' < stir n m :=
  Queue.stir_stop h.mem_crew (h.coherent.isRunning_of_held h.held) (fun _ => rfl) hsched hwaiting

/-- A thread that has rested asks for the queue. -/
theorem asks (h : Running n xs pace p me m) (hp : p me = .resting false 0 (.asks g)) :
    m.Attains (Onward n xs pace p m) := by
  have hnone : (skeletons p me).target? = none := by
    rw [skeletons, hp]
    rfl
  apply h.rested hp
  intro r k e
  apply Machine.attains_scope_cell h.held h.staged.host
  by_cases hfree : (m.mutexes.get (.cell cell)).owner = none
  · apply Machine.attains_acquire h.held hfree
    apply h.granted hp (.inl rfl)
    · exact { SameThreads.refl m with }
    · rfl
    · rfl
    · rfl
    · rfl
    · exact h.claims.take_cell hnone hfree rfl rfl rfl
  · apply Machine.attains_acquire_queued h.held hfree (h.claims.owner_ne hnone)
    refine h.suspends hp (q := .asking g) rfl rfl rfl (by cases g <;> rfl) rfl rfl ?_ rfl rfl
      (Sched.mild_stop me m.sched) (Balanced.steady_stop h.held) (fun _ hnil => hnil) ?_
      (fun _ => rfl) (.inl Nat.one_pos)
    · exact { SameThreads.refl m with }
    · exact h.claims.queue_cell hnone hfree rfl rfl rfl rfl

/-- A thread that was woken in front of the queue looks whether it has it. -/
theorem wakes_asking (h : Running n xs pace p me m) (hp : p me = .asking g) :
    m.Attains (Onward n xs pace p m) := by
  apply h.attains hp (by simp [Point.stack, Point.tasks])
  intro r k e
  by_cases howner : (m.mutexes.get (.cell cell)).owner = some me
  · apply Machine.attains_awaitOwner h.held howner
    exact h.granted hp (.inr rfl) (.refl m) rfl rfl rfl rfl (h.comes_in hp rfl howner)
  · apply Machine.attains_awaitOwner_again h.held howner
    exact h.lingers hp rfl { Aside.refl m with } rfl (Sched.mild_stop me m.sched)
      (Balanced.steady_stop h.held) (h.stir_stop rfl (Nat.le_succ _))

/-! ## Giving the queue up -/

/-- A thread gives the queue up and goes on with a rest. -/
theorem gives_up (h : Running n xs pace p me m) (hp : p me = .resting false 0 s) (s' : Spot)
    (hin : s.skeleton = .inside false 0 grip []) (hout : s'.skeleton = .outside false 0 [])
    (htasks : s.tasks n xs (number me) (pace (number me)) =
      outro (pause (number me) (pace (number me)) ++ s'.tasks n xs (number me) (pace (number me))))
    (haccount : s'.account xs = s.account xs)
    (hquiet : (Point.arriving s').isQuiet = (Point.resting false 0 s).isQuiet)
    (hrank : s'.rank n xs (untaken xs m.memory) < s.rank n xs (untaken xs m.memory)) :
    m.Attains (Onward n xs pace p m) := by
  have hholding : (skeletons p me).holding? = some (.cell cell) := by
    rw [skeletons, hp]
    show s.skeleton.holding? = _
    rw [hin]
    rfl
  apply h.rested hp
  intro r k e
  rw [htasks]
  apply Machine.attains_drop_cell h.held (h.claims.owner_of_holding hholding)
  intro m' hhanded hmild hheld
  apply Machine.attains_answer hheld
  apply Machine.attains_report "end" hheld
  have hclaims : Claims (update (skeletons p) me s'.skeleton) m' :=
    h.claims.release_cell hholding hhanded.mutexes hhanded.locks (by rw [hout]; rfl)
  refine h.goes_on hp s' ?_ (congrArg some haccount) hquiet { hhanded.toSameThreads with }
    hhanded.pairing hhanded.memory ?_ hmild hheld { hclaims with } ?_
  · show s'.skeleton.stage = s.skeleton.stage
    rw [hin, hout]
    rfl
  · show _ → sleepers m' = []
    rw [sleepers, sleepers, hhanded.rendezvous]
    exact id
  · simp only [Point.work]
    omega

end Running

end Queue

end Baton
