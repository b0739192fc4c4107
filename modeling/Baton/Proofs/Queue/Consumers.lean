import Baton.Proofs.Queue.Visits
import Mathlib.Algebra.BigOperators.Group.Finset.Piecewise

/-!
# Queue: consumers

What a running consumer does between two points of its rounds. With the queue it looks whether it
has to sleep; then it goes to sleep and gives the queue up in one piece, so nobody fills the queue
in between. A woken sleeper waits for the queue and looks again.
-/

namespace Baton

namespace Queue

open Baton.Balanced (crew number Claims)
open Function (update)
open Machine (SameThreads)

variable {n : Nat} {xs : List Int} {pace : Nat → Pace} {p : ThreadId → Point} {m m' : Machine}
  {me t : ThreadId} {q x : Point} {r : Reply} {k : Nat} {e : ErrorText}

/-- The main thread is quiet only after it has closed the queue. -/
theorem Books.closed_of_isQuiet {mem : Memory} (h : Books xs p mem)
    (hquiet : (p .first).isQuiet = true) : mem.var closedVar = 1 := by
  have haccount : (p .first).account xs = some (.producer [] true) := by
    cases hp : p .first with
    | arriving s | resting _ _ s =>
        rw [hp] at hquiet
        cases s <;> first | rfl | cases hquiet
    | awaits | drains | halted => rfl
    | _ =>
        rw [hp] at hquiet
        cases hquiet
  obtain ⟨-, -, hclosed, -⟩ := h.right .first _ haccount
  exact hclosed

/-- A wakeup makes the threads together more alert by one at most. -/
theorem alertness_wakeup_le (id : ThreadId) (m : Machine) :
    Balanced.alertness n (m.onSched (Sched.wakeup id)) ≤ Balanced.alertness n m + 1 := by
  have hone : ∑ t ∈ crew n, (if t = id then 1 else 0) ≤ 1 := by
    rw [Finset.sum_ite_eq' (crew n) id]
    split <;> simp
  have hall : Balanced.alertness n (m.onSched (Sched.wakeup id)) ≤
      ∑ t ∈ crew n, (m.sched.alertness t + if t = id then 1 else 0) :=
    Finset.sum_le_sum fun t _ => Sched.alertness_wakeup_le id t m.sched
  rw [Finset.sum_add_distrib] at hall
  exact Nat.le_trans hall (Nat.add_le_add_left hone _)

/-- The hand-over of the queue makes no more stir than one suspension takes away: the thread that is
woken is no longer in front of the queue. -/
theorem stir_release_le (howner : (m.mutexes.get (.cell cell)).owner = some me) :
    stir n (m.release me (.cell cell)) ≤ stir n m + 1 := by
  obtain ⟨hhanded, -, -⟩ := Machine.handedOver_release howner
  have hwaiting : ((m.release me (.cell cell)).mutexes.get (.cell cell)).waiting =
      (m.mutexes.get (.cell cell)).waiting.tail := by
    rw [hhanded.mutexes, Store.get_set, if_pos rfl]
    rfl
  rw [stir, stir, hwaiting, List.length_tail]
  rw [Machine.release]
  simp only [Mutex.isOwnedBy, howner, beq_self_eq_true, if_true]
  cases hnext : (m.mutexes.get (.cell cell)).handOver.owner with
  | none =>
      show 2 * Balanced.alertness n m + _ ≤ _
      omega
  | some next =>
      have halert : Balanced.alertness n (((m.setMutex (.cell cell)
          (m.mutexes.get (.cell cell)).handOver).note (.mutexHanded me next)).onSched
            (Sched.wakeup next)) ≤ Balanced.alertness n m + 1 :=
        alertness_wakeup_le next ((m.setMutex (.cell cell) _).note (.mutexHanded me next))
      have hpos : 0 < (m.mutexes.get (.cell cell)).waiting.length :=
        List.length_pos_of_mem (List.mem_of_mem_head? hnext)
      simp only
      omega

/-- A thread that goes to sleep again makes less stir. -/
theorem stir_bedded (hme : me ∈ crew n) (hrun : m.sched.isRunning me = true)
    (howner : (m.mutexes.get (.cell cell)).owner = some me) :
    stir n ((m.bedded me (.cond nonempty) (.cell cell)).onSched (Sched.stop me)) < stir n m := by
  have hreleased : stir n (m.bedded me (.cond nonempty) (.cell cell)) ≤ stir n m + 1 :=
    stir_release_le (m := m.setRendez (.cond nonempty) _) howner
  have hrunning : (m.bedded me (.cond nonempty) (.cell cell)).sched.isRunning me = true := by
    rw [Machine.bedded, Machine.isRunning_release]
    exact hrun
  have halert : Balanced.alertness n
      ((m.bedded me (.cond nonempty) (.cell cell)).onSched (Sched.stop me)) <
        Balanced.alertness n (m.bedded me (.cond nonempty) (.cell cell)) :=
    Balanced.alertness_stop hme hrunning (fun _ => rfl) rfl
  rw [stir] at hreleased ⊢
  show 2 * _ + ((m.bedded me (.cond nonempty) (.cell cell)).mutexes.get _).waiting.length < _
  omega

namespace Running

/-! ## Looking -/

theorem innermostGuard_second (n : Nat) (xs : List Int) (k : Nat) (pace : Pace) :
    innermostGuard (.report "cond_sleep_while" :: (pause k pace ++ Spot.takes.tasks n xs k pace)) =
      some (.cell cell) := by
  show innermostGuard (pause k pace ++ _) = _
  rw [pause, innermostGuard_code]
  show innermostGuard (pause k pace ++ _) = _
  rw [pause, innermostGuard_code]
  rfl

/-- A consumer that has the queue need not sleep. -/
theorem chooses (h : Running n xs pace p me m) (hp : p me = x)
    (hx : x = .resting false 0 .looks ∨ x = .asleep ∨ x = .returning) (hs : SameThreads m m')
    (hpairing : m'.pairing = m.pairing) (hmemory : m'.memory = m.memory)
    (hsched : m'.sched = m.sched) (hsleepers : sleepers m = [] → sleepers m' = [])
    (hclaims : Claims (update (skeletons p) me (.inside false 0 grip [])) m')
    (htest : ((items m.memory).isEmpty && m.memory.var closedVar == 0) = false) :
    (m'.withThread me ⟨(Point.arriving .takes).stack n xs pace me, r, k, e⟩).Attains
      (Onward n xs pace p m) := by
  refine h.arrives hp rfl ?_ hs hpairing ?_ ?_ ?_ hclaims ?_ ?_ ?_
  · rcases hx with rfl | rfl | rfl <;> rfl
  · rw [hsched]
    exact .refl _ _
  · rw [hsched]
    exact h.canStop_of_mild (.refl _ _)
  · rw [hsched]
    exact h.steady
  · rw [hmemory]
    apply h.books.choose _ rfl rfl htest
    rw [hp]
    rcases hx with rfl | rfl | rfl <;> rfl
  · rw [isQuiet_update (by rw [hp]; rcases hx with rfl | rfl | rfl <;> rfl)]
    exact fun hq => hsleepers (h.quiet hq)
  · apply distance_lt_of_work h.mem_crew
    · rw [hmemory]
    · rw [hmemory, hp]
      rcases hx with rfl | rfl | rfl <;> simp [Point.work, Spot.rank] <;> omega

/-- A consumer that has the queue goes to sleep. -/
theorem goes_to_sleep (h : Running n xs pace p me m) (hp : p me = x)
    (hx : x = .resting false 0 .looks ∨ x = .asleep ∨ x = .returning) (hs : SameThreads m m')
    (hpairing : m'.pairing = m.pairing) (hmemory : m'.memory = m.memory)
    (hsched : m'.sched = m.sched)
    (hclaims : Claims (update (skeletons p) me (.inside false 0 grip [])) m')
    (hwaiting : (m'.mutexes.get (.cell cell)).waiting = (m.mutexes.get (.cell cell)).waiting)
    (htest : ((items m.memory).isEmpty && m.memory.var closedVar == 0) = true) :
    (((m'.bedded me (.cond nonempty) (.cell cell)).onSched (Sched.stop me)).withThread me
      ⟨Point.asleep.stack n xs pace me, r, k, e⟩).Attains (Onward n xs pace p m) := by
  have hholding : (update (skeletons p) me (.inside false 0 grip []) me).holding? =
      some (.cell cell) := by
    rw [Function.update_self]
    rfl
  have howner : (m'.mutexes.get (.cell cell)).owner = some me :=
    hclaims.owner_of_holding hholding
  obtain ⟨hhanded, hmild, hturn⟩ := Machine.handedOver_bedded (x := .cond nonempty) howner
  have hclaims' : Claims (update (skeletons p) me Point.asleep.skeleton)
      (m'.bedded me (.cond nonempty) (.cell cell)) := by
    have hreleased := hclaims.release_cell (q := Point.asleep.skeleton) hholding
      hhanded.mutexes hhanded.locks rfl
    rwa [Function.update_idem] at hreleased
  have hbedded : SameThreads m' (m'.bedded me (.cond nonempty) (.cell cell)) :=
    { hhanded.toSameThreads with }
  have hheld : (m'.bedded me (.cond nonempty) (.cell cell)).sched.turn = .held me :=
    (hturn.trans (congrArg Sched.turn hsched)).trans h.held
  have hmild : Sched.Mild (fun _ => True) m.sched
      (m'.bedded me (.cond nonempty) (.cell cell)).sched := hsched ▸ hmild
  refine h.suspends hp (q := .asleep) rfl ?_ ?_ ?_ rfl rfl { hs.trans hbedded with }
    (hhanded.pairing.trans hpairing) (hhanded.memory.trans hmemory)
    ((hmild.mono fun _ _ => trivial).trans (Sched.mild_stop me _)) (Balanced.steady_stop hheld)
    ?_ { hclaims' with } ?_ ?_
  · rcases hx with rfl | rfl | rfl <;> rfl
  · rcases hx with rfl | rfl | rfl <;> rfl
  · rcases hx with rfl | rfl | rfl <;> rfl
  · intro hquiet
    rw [h.books.closed_of_isQuiet hquiet] at htest
    simp at htest
  · rcases hx with rfl | rfl | rfl <;> exact fun _ => rfl
  · have hless : stir n ((m'.bedded me (.cond nonempty) (.cell cell)).onSched (Sched.stop me)) <
        stir n m := by
      have hsame : stir n m' = stir n m := by
        rw [stir, stir, hwaiting, Balanced.alertness, Balanced.alertness, hsched]
      rw [← hsame]
      refine stir_bedded h.mem_crew ?_ howner
      rw [hsched]
      exact h.coherent.isRunning_of_held h.held
    rcases hx with rfl | rfl | rfl
    · exact .inl Nat.one_pos
    · exact .inr ⟨rfl, hless⟩
    · exact .inr ⟨rfl, hless⟩

/-- A consumer that has the queue looks whether it has to sleep. -/
theorem tests (h : Running n xs pace p me m) (hp : p me = x)
    (hx : x = .resting false 0 .looks ∨ x = .asleep ∨ x = .returning) (hs : SameThreads m m')
    (hpairing : m'.pairing = m.pairing) (hmemory : m'.memory = m.memory)
    (hsched : m'.sched = m.sched) (hsleepers : sleepers m = [] → sleepers m' = [])
    (hclaims : Claims (update (skeletons p) me (.inside false 0 grip [])) m')
    (hwaiting : (m'.mutexes.get (.cell cell)).waiting = (m.mutexes.get (.cell cell)).waiting) :
    (m'.withThread me ⟨second n xs (number me) (pace (number me)), r, k, e⟩).Attains
      (Onward n xs pace p m) := by
  have hheld : m'.sched.turn = .held me := by rw [hsched, h.held]
  cases htest : (items m.memory).isEmpty && m.memory.var closedVar == 0 with
  | false =>
      apply Machine.attains_condSleepWhile_done hheld (innermostGuard_second ..)
      · rw [mustSleep, hmemory, htest]
      apply Machine.attains_report "cond_sleep_while" hheld
      exact h.chooses hp hx { hs with } hpairing hmemory hsched hsleepers { hclaims with } htest
  | true =>
      apply Machine.attains_condSleepWhile_sleep hheld (innermostGuard_second ..)
      · rw [mustSleep, hmemory, htest]
      · rw [Machine.pairedCell, hpairing, h.staged.pairing]
        rfl
      exact h.goes_to_sleep hp hx hs hpairing hmemory hsched hclaims hwaiting htest

/-- A consumer that has rested with the queue looks whether it has to sleep. -/
theorem looks (h : Running n xs pace p me m) (hp : p me = .resting false 0 .looks) :
    m.Attains (Onward n xs pace p m) := by
  apply h.rested hp
  intro r k e
  apply Machine.attains_instr h.held h.staged.host
  exact h.tests hp (.inl rfl) (.refl m) rfl rfl rfl id
    (h.keeps_claims hp ⟨rfl, rfl, rfl, rfl⟩ rfl rfl) rfl

/-- A sleeper was woken. It leaves the rendezvous and asks for the queue. -/
theorem wakes_up (h : Running n xs pace p me m) (hp : p me = .asleep) :
    m.Attains (Onward n xs pace p m) := by
  have hnone : (skeletons p me).target? = none := by
    rw [skeletons, hp]
    rfl
  have hsleepers : sleepers m = [] → sleepers (m.leave me (.cond nonempty)) = [] := by
    intro hnil
    rw [sleepers] at hnil
    rw [sleepers, Machine.leave, Machine.setRendez, Store.get_set, if_pos rfl, Rendez.leave, hnil]
    rfl
  apply h.attains hp (by simp [Point.stack, Point.tasks])
  intro r k e
  apply Machine.attains_leave h.held
  by_cases hfree : (m.mutexes.get (.cell cell)).owner = none
  · apply Machine.attains_acquire (by exact h.held) (by exact hfree)
    refine h.tests hp (.inr (.inl rfl)) { SameThreads.refl m with } rfl rfl rfl hsleepers ?_ ?_
    · exact h.claims.take_cell hnone hfree rfl rfl rfl
    · rw [Machine.get_setMutex_self]
      rfl
  · apply Machine.attains_acquire_queued (by exact h.held) (by exact hfree)
      (by exact h.claims.owner_ne hnone)
    refine h.suspends hp (q := .returning) rfl rfl rfl rfl rfl rfl { SameThreads.refl m with } rfl
      rfl (Sched.mild_stop me m.sched) (Balanced.steady_stop h.held) (fun _ => hsleepers) ?_
      (fun _ => rfl) (.inr ⟨rfl, h.stir_stop rfl ?_⟩)
    · exact h.claims.queue_cell hnone hfree rfl rfl rfl rfl
    · show ((Machine.setMutex _ _ _).mutexes.get _).waiting.length ≤ _
      rw [Machine.get_setMutex_self, List.length_append]
      exact Nat.le_refl _

/-- A sleeper that was woken while it waited for the queue looks whether it has it. -/
theorem wakes_returning (h : Running n xs pace p me m) (hp : p me = .returning) :
    m.Attains (Onward n xs pace p m) := by
  apply h.attains hp (by simp [Point.stack, Point.tasks])
  intro r k e
  by_cases howner : (m.mutexes.get (.cell cell)).owner = some me
  · apply Machine.attains_awaitOwner h.held howner
    exact h.tests hp (.inr (.inr rfl)) (.refl m) rfl rfl rfl id (h.comes_in hp rfl howner) rfl
  · apply Machine.attains_awaitOwner_again h.held howner
    exact h.lingers hp rfl { Aside.refl m with } rfl (Sched.mild_stop me m.sched)
      (Balanced.steady_stop h.held) (h.stir_stop rfl (Nat.le_succ _))

/-! ## Taking -/

/-- A consumer that is about to take an item has the queue. -/
theorem holding_of_taking {left : Bool} (h : q.account xs = some (.consumer left true)) :
    q.skeleton.holding? = some (.cell cell) := by
  cases q with
  | arriving s | resting _ _ s =>
      cases s with
      | takes => rfl
      | asks g => cases g <;> cases h
      | _ => cases h
  | asking g => cases g <;> cases h
  | _ => cases h

/-- At most one consumer is about to take an item. -/
theorem alone (h : Running n xs pace p me m) {left left' : Bool}
    (hme : (p me).account xs = some (.consumer left true))
    (ht : (p t).account xs = some (.consumer left' true)) : t = me :=
  (h.claims.alone (t := me) (u := t) (holding_of_taking hme) (holding_of_taking ht) rfl rfl).1

/-- As long as there are items in the queue not all have been taken. -/
theorem length_taken_lt {y : Int} {rest : List Int} (h : Running n xs pace p me m)
    (hitems : items m.memory = y :: rest) : (taken m.memory).length < xs.length := by
  obtain ⟨pending, closed, hmain⟩ := h.books.main
  obtain ⟨-, hflow, -⟩ := h.books.right .first _ hmain
  rw [← hflow, hitems]
  simp

/-- A consumer takes an item, or leaves. -/
theorem takes (h : Running n xs pace p me m) (hp : p me = .resting false 0 .takes) :
    m.Attains (Onward n xs pace p m) := by
  have haccount : (p me).account xs = some (.consumer false true) := by
    rw [hp]
    rfl
  apply h.rested hp
  intro r k e
  apply Machine.attains_update h.held h.staged.host
  have hs : Aside m { m with memory := take (number me) m.memory } :=
    { Aside.refl m with }
  cases hitems : items m.memory with
  | nil =>
      refine h.strolls hp (q := .arriving (.leaves true)) rfl rfl ⟨rfl, rfl, rfl, rfl⟩ rfl hs
        (.refl _ _) h.steady (h.books.leave haccount rfl rfl hitems) ?_
      have hsame : untaken xs (take (number me) m.memory) = untaken xs m.memory := by
        rw [take, hitems]
        rfl
      apply distance_lt_of_work h.mem_crew
      · exact Nat.le_of_eq hsame
      · show Point.work n xs (untaken xs (take (number me) m.memory)) _ < _
        rw [hsame, hp]
        simp only [Point.work, Spot.rank]
        omega
  | cons y rest =>
      have halone : ∀ t left, t ≠ me → (p t).account xs ≠ some (.consumer left true) :=
        fun t left hne ht => hne (h.alone haccount ht)
      refine h.strolls hp (q := .arriving (.leaves false)) rfl rfl ⟨rfl, rfl, rfl, rfl⟩ rfl hs
        (.refl _ _) h.steady (h.books.take haccount rfl rfl hitems halone) ?_
      have hless : untaken xs (take (number me) m.memory) < untaken xs m.memory := by
        have hlt := h.length_taken_lt hitems
        rw [untaken, untaken, taken_take hitems, List.length_append]
        simp
        omega
      apply distance_lt_of_work h.mem_crew
      · exact Nat.le_of_lt hless
      · show Point.work n xs (untaken xs (take (number me) m.memory)) _ < _
        rw [hp]
        simp only [Point.work, Spot.rank]
        omega

/-- A consumer gives the queue up. -/
theorem leaves {left : Bool} (h : Running n xs pace p me m)
    (hp : p me = .resting false 0 (.leaves left)) : m.Attains (Onward n xs pace p m) := by
  refine h.gives_up hp (.turns left) rfl rfl rfl rfl rfl ?_
  cases left <;> simp [Spot.rank]

/-! ## Rounds -/

/-- A consumer that has not left begins another round. -/
theorem turns (h : Running n xs pace p me m) (hp : p me = .resting false 0 (.turns false)) :
    m.Attains (Onward n xs pace p m) := by
  obtain ⟨hleft, -, -⟩ := h.books.right me (.consumer false false) (by rw [hp]; rfl)
  apply h.rested hp
  intro r k e
  apply Machine.attains_whilst h.held h.staged.host
  · rw [isWorking, hleft]
    rfl
  rw [paced_tasks]
  refine h.goes_on hp (.asks .consumer) rfl rfl rfl (.refl m) rfl rfl id (.refl _ _) h.held ?_ ?_
  · exact h.keeps_claims hp ⟨rfl, rfl, rfl, rfl⟩ rfl rfl
  · simp [Point.work, Spot.rank]
    omega

/-- A consumer that has left ends its rounds. -/
theorem turns_out (h : Running n xs pace p me m) (hp : p me = .resting false 0 (.turns true)) :
    m.Attains (Onward n xs pace p m) := by
  obtain ⟨hleft, -, -⟩ := h.books.right me (.consumer true false) (by rw [hp]; rfl)
  apply h.rested hp
  intro r k e
  apply Machine.attains_whilst_end h.held h.staged.host
  · rw [isWorking, hleft]
    rfl
  refine h.goes_on hp .ends rfl rfl rfl (.refl m) rfl rfl id (.refl _ _) h.held ?_ ?_
  · exact h.keeps_claims hp ⟨rfl, rfl, rfl, rfl⟩ rfl rfl
  · simp [Point.work, Spot.rank]

end Running

end Queue

end Baton
