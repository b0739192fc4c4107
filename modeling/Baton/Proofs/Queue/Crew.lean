import Baton.Proofs.Queue.Producer
import Baton.Proofs.Workload.Ends
import Baton.Proofs.Workload.Starts

/-!
# Queue: starting, joining and ending threads

What the main thread does before and after it deals with the queue, and the end of a consumer. The
main thread starts the consumers in order and joins them in the same order; it is the last one, and
with it the run is over.
-/

namespace Baton

namespace Queue

open Baton.Balanced (number spawned spawns joins Claims Led first_mem_crew spawned_mem_crew
  spawned_ne_first)
open Function (update)
open Machine (Started)

variable {n : Nat} {xs : List Int} {pace : Nat → Pace} {p : ThreadId → Point} {m m' : Machine}
  {me t : ThreadId} {q x : Point} {r : Reply} {c i k : Nat} {e : ErrorText}

/-! ## Starting threads -/

/-- The points when the main thread has started one more consumer. -/
def withNew (p : ThreadId → Point) (c : Nat) : ThreadId → Point :=
  update (update p .first (.arriving (.starts (c + 1)))) (spawned c) (.arriving (.turns false))

theorem withNew_spawned : withNew p c (spawned c) = .arriving (.turns false) :=
  Function.update_self ..

theorem withNew_first (hc : c + 1 < UInt64.size) :
    withNew p c .first = .arriving (.starts (c + 1)) := by
  rw [withNew, Function.update_of_ne (spawned_ne_first hc).symm, Function.update_self]

theorem withNew_of_ne (hfirst : t ≠ .first) (hnew : t ≠ spawned c) : withNew p c t = p t := by
  rw [withNew, Function.update_of_ne hnew, Function.update_of_ne hfirst]

theorem skeletons_withNew :
    skeletons (withNew p c) = Balanced.withNew (skeletons p) c [] [] := by
  rw [withNew, skeletons_update, skeletons_update]
  rfl

/-- A new thread has the rounds of a consumer before it. -/
theorem Staged.newThread_eq (h : Staged n xs pace p m) (hn : n < UInt64.size) (hc : c < n) :
    m.newThread (c + 1) =
      ⟨(Point.arriving (.turns false)).stack n xs pace (spawned c), .null, 0, .fresh⟩ := by
  have hcode : m.code.getD (c + 1) [] = consumer (c + 1) (pace (c + 1)) := by
    rw [h.code]
    simp [program, hc]
  have hnumber : number (spawned c) = c + 1 := Balanced.number_spawned (by omega)
  rw [Machine.newThread, hcode, consumer, paced_tasks, Point.stack, hnumber]
  rfl

theorem Staged.spawn {th : Thread} (h : Staged n xs pace p m) (hn : n < UInt64.size) (hc : c < n)
    (halive : (p .first).isAlive = true) (hunborn : p (spawned c) = .unborn)
    (hrest : (p .first).canStop = false) (hnext : m.sched.ids.next = spawned c)
    (hs : Started .first (c + 1) m m')
    (hth : th.stack = (Point.arriving (.starts (c + 1))).stack n xs pace .first) :
    Staged n xs pace (withNew p c) (m'.withThread .first th) where
  toPlaced := by
    rw [withNew, ← hnext]
    apply h.toPlaced.spawn hs
    · rw [hnext]
      exact spawned_ne_first (by omega)
    · exact halive
    · exact hrest
    · rfl
    · exact hth
    · nofun
    · rfl
    · rw [hnext]
      exact h.newThread_eq hn hc
  pairing := hs.pairing.trans h.pairing
  stranger t := by
    by_cases hnew : t = spawned c
    · rw [hnew, withNew_spawned, ← h.stranger, hunborn]
      simp
    · by_cases hfirst : t = .first
      · rw [hfirst, withNew_first (by omega)]
        exact iff_of_false (by simp) (not_not_intro (first_mem_crew n))
      · rw [withNew_of_ne hfirst hnew]
        exact h.stranger t

/-- The consumer with the next number has not been started. -/
theorem AtPoints.unborn (h : AtPoints n xs pace p m) (hc : c < n)
    (hp : (p .first).skeleton = .spawning c []) : p (spawned c) = .unborn := by
  have hstage := h.led.unborn c (by rwa [length_mates])
    (by rw [skeletons, hp]; exact Nat.le_refl c)
  rw [getElem_mates, skeletons] at hstage
  cases hpc : p (spawned c) with
  | unborn => rfl
  | arriving s | resting _ _ s =>
      rw [hpc] at hstage
      cases s <;> cases hstage
  | _ =>
      rw [hpc] at hstage
      cases hstage

/-- The threads are at their points when the main thread has started one more consumer. -/
theorem AtPoints.spawn (h : AtPoints n xs pace p m) (hn : n < UInt64.size) (hc : c < n)
    (hp : p .first = .resting false 0 (.starts c)) (hs : Started .first (c + 1) m m') :
    AtPoints n xs pace (withNew p c) (m'.withThread .first
      ⟨(Point.arriving (.starts (c + 1))).stack n xs pace .first, r, k, e⟩) := by
  have hskeleton : skeletons p .first = .spawning c [] := by
    rw [skeletons, hp]
    rfl
  have hunborn := h.unborn hc hskeleton
  have hne : spawned c ≠ .first := spawned_ne_first (by omega)
  have hclaims : Claims (Balanced.withNew (skeletons p) c [] []) m' := by
    have hmain : Claims (update (skeletons p) .first (.spawning (c + 1) [])) m' :=
      h.keeps_claims hp ⟨rfl, rfl, rfl, rfl⟩ hs.mutexes hs.locks
    apply hmain.stay rfl rfl
    rw [Function.update_of_ne hne, skeletons, hunborn]
    exact ⟨rfl, rfl, rfl, rfl⟩
  have hbooks : Books xs (withNew p c) m'.memory := by
    have hmain : Books xs (update p .first (.arriving (.starts (c + 1)))) m'.memory := by
      rw [hs.memory]
      exact h.books.stay (by rw [hp]; rfl) (fun _ hl => by cases hl)
    apply hmain.stay _ fun _ hl => by cases hl
    rw [Function.update_of_ne hne, hunborn]
    rfl
  have hled : Led (mates n) (Balanced.withNew (skeletons p) c [] []) m' :=
    h.led.spawn (by rwa [length_mates]) (by rwa [length_mates]) hskeleton hs
  rw [← skeletons_withNew] at hclaims hled
  exact {
    staged := h.staged.spawn hn hc (by rw [hp]; rfl) hunborn (by rw [hp]; rfl)
      (h.led.next_eq hskeleton) hs rfl
    led := { hled with entered := { hled.entered with } }
    claims := { hclaims with }
    books := hbooks
    quiet := by
      rw [withNew_first (by omega)]
      intro hquiet
      cases hquiet }

/-- The work of a new consumer is less than that of one that has not been started. -/
theorem distance_withNew_lt (hn : n < UInt64.size) (hc : c < n)
    (hp : p .first = .resting false 0 (.starts c)) (hunborn : p (spawned c) = .unborn)
    (hmemory : m'.memory = m.memory) : distance n xs (withNew p c) m' < distance n xs p m := by
  have hsame : untaken xs m'.memory = untaken xs m.memory := by rw [hmemory]
  refine lt_trans (distance_lt_of_work (spawned_mem_crew hc) (Nat.le_refl _) ?_)
    (distance_lt_of_work (first_mem_crew n) (Nat.le_of_eq hsame) ?_)
  · rw [Function.update_of_ne (spawned_ne_first (by omega)), hunborn]
    simp only [Point.work, Spot.rank]
    omega
  · rw [hsame, hp]
    simp only [Point.work, Spot.rank]
    omega

namespace Running

/-- The main thread starts the next consumer. -/
theorem starts_next (h : Running n xs pace p .first m) (hn : n < UInt64.size) (hc : c < n)
    (hp : p .first = .resting false 0 (.starts c)) : m.Attains (Onward n xs pace p m) := by
  have hskeleton : skeletons p .first = .spawning c [] := by
    rw [skeletons, hp]
    rfl
  have hnext := h.led.next_eq hskeleton
  apply h.rested hp
  intro r k e
  rw [Spot.tasks, Balanced.spawns_drop hc]
  apply Machine.attains_spawn h.held h.staged.host
  · rw [hnext]
    exact spawned_ne_first (by omega)
  intro m' hs
  have hheld : m'.sched.turn = .held .first := by
    rw [hs.sched]
    exact h.held
  exact .here ⟨withNew p c, h.spawn hn hc hp hs, .inr ⟨.first, .inl hheld⟩,
    distance_withNew_lt hn hc hp (h.unborn hc hskeleton) hs.memory⟩

/-- The main thread has started all consumers. -/
theorem starts_last (h : Running n xs pace p .first m) (hn : n < UInt64.size)
    (hp : p .first = .resting false 0 (.starts n)) : m.Attains (Onward n xs pace p m) := by
  have hentered := h.entered
  rw [hp] at hentered
  have hstack : (Point.resting false 0 (.starts n)).stack n xs pace .first =
      (Point.resting false 0 (.asks (.producer xs))).stack n xs pace .first := by
    rw [Point.stack, Point.stack, Point.tasks, Point.tasks, ← road_producer, Spot.tasks,
      List.drop_eq_nil_of_le (by simp [spawns])]
    rfl
  apply h.attains hp (by simp [Point.stack, Point.tasks])
  intro r k e
  rw [hstack]
  refine h.leads hn hp (q := .resting false 0 (.asks (.producer xs))) rfl ⟨rfl, rfl, rfl, rfl⟩ rfl
    (fun _ hl => hl) (.refl m) (.refl _ _) (h.canStop_of_mild (.refl _ _)) h.steady ?_ rfl ?_ ?_
  · intro hquiet
    cases hquiet
  · exact ⟨trivial, hentered.handles, by simp [Point.skeleton, Spot.skeleton,
      Balanced.Point.stage]⟩
  · simp [Point.work, Spot.rank]

/-! ## Joining threads -/

/-- The main thread goes on with the next consumer that it joins. -/
theorem joined (h : Running n xs pace p .first m) (hn : n < UInt64.size) (hc : c < n)
    (hp : p .first = x) (hx : x = .resting false 0 (.joins c) ∨ x = .awaits c)
    (hs : Offstage m m') (hrendez : m'.rendezvous = m.rendezvous) (hsched : m'.sched = m.sched)
    (hhandles : ∀ i, c + 1 ≤ i → i < n → spawned i ∈ m'.handles) :
    (m'.withThread .first
      ⟨(Point.arriving (.joins (c + 1))).stack n xs pace .first, r, k, e⟩).Attains
        (Onward n xs pace p m) := by
  refine h.leads hn hp (q := .arriving (.joins (c + 1))) rfl ?_ ?_ (fun _ hl => by cases hl) hs
    ?_ ?_ ?_ ?_ ?_ ?_ ?_
  · rcases hx with rfl | rfl <;> exact ⟨rfl, rfl, rfl, rfl⟩
  · rcases hx with rfl | rfl <;> rfl
  · rw [hsched]
    exact .refl _ _
  · rw [hsched]
    exact h.canStop_of_mild (.refl _ _)
  · rw [hsched]
    exact h.steady
  · intro _
    rw [sleepers, hrendez]
    apply h.quiet
    rw [hp]
    rcases hx with rfl | rfl <;> rfl
  · rcases hx with rfl | rfl <;> rfl
  · exact ⟨hc, hhandles, by simp [Point.skeleton, Spot.skeleton, Balanced.Point.stage]⟩
  · rcases hx with rfl | rfl <;> simp [Point.work, Spot.rank] <;> omega

/-- The main thread joins the next consumer. -/
theorem joins_next (h : Running n xs pace p .first m) (hn : n < UInt64.size) (hc : c < n)
    (hp : p .first = .resting false 0 (.joins c)) : m.Attains (Onward n xs pace p m) := by
  have hhandles := h.entered.handles
  rw [hp] at hhandles
  have hrest : ∀ i, c + 1 ≤ i → i < n → spawned i ∈ m.handles.erase (spawned c) := by
    intro i hi hin
    have hne : spawned i ≠ spawned c := by
      intro he
      have hic := (Balanced.spawned_inj (by omega) (by omega)).mp he
      omega
    exact (List.mem_erase_of_ne hne).mpr (hhandles i (by show c ≤ i; omega) hin)
  apply h.rested hp
  intro r k e
  rw [Spot.tasks, Balanced.joins_drop hc]
  apply Machine.attains_join h.held h.staged.host (hhandles c (Nat.le_refl c) hc)
  cases ho : m.outcomes.get? (spawned c) with
  | some o =>
      apply Machine.attains_awaitThread (by exact h.held) (by exact ho)
      apply Machine.attains_report "join" (by exact h.held)
      refine h.joined hn hc hp (.inl rfl) ?_ rfl rfl hrest
      exact { Offstage.refl m with }
  | none =>
      apply Machine.attains_awaitThread_again (by exact h.held) (by exact ho)
      have hadded : Sched.Mild (· ≠ .first) m.sched (m.sched.addJoiner (spawned c) .first) :=
        Sched.mild_addJoiner ..
      refine h.leads hn hp (q := .awaits c) rfl ⟨rfl, rfl, rfl, rfl⟩ rfl (fun _ hl => by cases hl)
        { Offstage.refl m with } (hadded.trans (Sched.mild_stop .first _))
        (fun _ => rfl) (Balanced.steady_stop h.held) ?_ rfl ?_ ?_
      · intro _
        exact h.quiet (by rw [hp]; rfl)
      · exact ⟨hc, hrest, by simp [Point.skeleton, Balanced.Point.stage]⟩
      · simp [Point.work, Spot.rank]
        omega

/-- The main thread was woken while it waited for the next consumer. -/
theorem wakes_joining (h : Running n xs pace p .first m) (hn : n < UInt64.size)
    (hp : p .first = .awaits c) : m.Attains (Onward n xs pace p m) := by
  have hhandles := h.entered.handles
  have hc := h.entered.leads
  rw [hp] at hhandles hc
  apply h.attains hp (by simp [Point.stack, Point.tasks])
  intro r k e
  cases ho : m.outcomes.get? (spawned c) with
  | some o =>
      apply Machine.attains_awaitThread h.held ho
      apply Machine.attains_report "join" h.held
      exact h.joined hn hc hp (.inr rfl) { Offstage.refl m with } rfl rfl hhandles
  | none =>
      apply Machine.attains_awaitThread_again h.held ho
      have hcoherent := h.coherent.sameRun (Sched.sameRun_addJoiner (spawned c) .first)
      have hadded : Sched.Mild (· ≠ .first) m.sched (m.sched.addJoiner (spawned c) .first) :=
        Sched.mild_addJoiner ..
      exact h.lingers hp rfl { Aside.refl m with } rfl
        (hadded.trans (Sched.mild_stop .first _)) (Balanced.steady_stop h.held)
        (Queue.stir_stop h.mem_crew (hcoherent.isRunning_of_held h.held)
          (Sched.alertness_addJoiner _ _ · _) rfl (Nat.le_succ _))

end Running

/-! ## Ending threads -/

/-- A thread has left the scheduler. -/
theorem Staged.ends {th : Thread} (h : Staged n xs pace p m) (halive : (p me).isAlive = true)
    (hq : q = .gone ∨ q = .halted) (hhost : m'.host = m.host) (hcode : m'.code = m.code)
    (hpairing : m'.pairing = m.pairing) (hthreads : m'.threads = m.threads)
    (hmain : m'.sched.main = m.sched.main) (hwaiters : m'.sched.waiters = m.sched.waiters)
    (hlive : ∀ t, m'.sched.isLive t = (m.sched.isLive t && decide (t ≠ me)))
    (hstopped : ∀ t, m'.sched.isStopped t = true → m.sched.isStopped t = true) :
    Staged n xs pace (update p me q) (m'.withThread me th) where
  toPlaced := by
    refine h.toPlaced.ends ?_ hhost hcode hthreads hmain hwaiters hlive hstopped
    rcases hq with rfl | rfl <;> rfl
  pairing := hpairing.trans h.pairing
  stranger t := by
    by_cases hne : t = me
    · subst hne
      rw [Function.update_self, ← h.stranger]
      apply iff_of_false
      · rcases hq with rfl | rfl <;> simp
      · intro habsent
        rw [habsent] at halive
        cases halive
    · rw [Function.update_of_ne hne]
      exact h.stranger t

/-- The main thread has ended the run. -/
theorem Staged.halts {th : Thread} (h : Staged n xs pace p m) (halive : (p .first).isAlive = true)
    (hs : Offstage m m') (hsched : m'.sched = m.sched.conclude .first) :
    Staged n xs pace (update p .first .halted) (m'.withThread .first th) := by
  apply h.ends halive (.inr rfl) hs.host hs.code hs.pairing hs.threads
  · rw [hsched]
    rfl
  · rw [hsched]
    rfl
  · rw [hsched]
    exact fun t => Sched.isLive_retire .first t .over m.sched
  · rw [hsched]
    intro t ht
    have hretired := (Sched.isStopped_retire .first t .over m.sched).symm.trans ht
    simp only [Bool.and_eq_true] at hretired
    exact hretired.1

namespace Running

/-- A consumer that has left ends. -/
theorem ends (h : Running n xs pace p me m) (hp : p me = .resting false 0 .ends) :
    m.Attains (Onward n xs pace p m) := by
  have haccount : (p me).account xs = some (.consumer true false) := by
    rw [hp]
    rfl
  have hme : me ≠ .first := h.books.ne_first haccount
  have hworking : (skeletons p me).stage = .working := by
    rw [skeletons, hp]
    rfl
  apply h.rested hp
  intro r k e
  apply Machine.attains_exit h.held (by rw [h.staged.main]; exact hme)
  have hturn : (m.sched.finish me).turn = .seeking me := Sched.turn_wakeAll ..
  have hwoken : Sched.Mild (fun _ => True) (m.sched.retire me (.seeking me)) (m.sched.finish me) :=
    Sched.mild_wakeAll ..
  have hled : Led (mates n) (skeletons (update p me .gone))
      ({ m with outcomes := m.outcomes.set me (.finished k) }.onSched (Sched.finish me)) := by
    rw [skeletons_update]
    exact h.led.ends hme hworking hwoken.ids rfl rfl rfl (by simp [h.held])
  have hclaims : Claims (skeletons (update p me .gone)) m := by
    rw [skeletons_update]
    exact h.keeps_claims hp ⟨rfl, rfl, rfl, rfl⟩ rfl rfl
  refine .here ⟨update p me .gone, ?_, .inr ⟨me, .inr hturn⟩, ?_⟩
  · exact {
      staged := h.staged.ends h.isAlive (.inl rfl) rfl rfl rfl rfl hwoken.main hwoken.waiters
        (fun t => Sched.isLive_finish me t m.sched) (fun t ht => (Sched.isStopped_finish ht).1)
      led := { hled with entered := { hled.entered with } }
      claims := { hclaims with }
      books := h.books.stay (by rw [hp]; rfl) (fun _ hl => by cases hl)
      quiet := by
        rw [Function.update_of_ne (Ne.symm hme)]
        exact h.quiet }
  · refine distance_lt_of_work h.mem_crew (Nat.le_refl _) ?_
    rw [hp]
    simp [Point.work, Spot.rank]

/-- The main thread is the last one. -/
theorem concludes (h : Running n xs pace p .first m) (hn : n < UInt64.size) (hp : p .first = x)
    (hx : x = .resting false 0 (.joins n) ∨ x = .drains) (hs : Offstage m m')
    (hrendez : m'.rendezvous = m.rendezvous) (hsched : m'.sched = m.sched.conclude .first)
    (hmain : m'.mainOutcome = some (.finished i)) :
    (m'.withThread .first ⟨[], r, k, e⟩).Attains (Onward n xs pace p m) := by
  have hover : m'.sched.turn = .over := by
    rw [hsched]
    rfl
  have hled : Led (mates n) (skeletons (update p .first .halted)) m' := by
    rw [skeletons_update]
    refine h.led.lead (by rwa [length_mates]) ?_ ?_ hs.outcomes ?_ (.inr hover)
    · rw [skeletons, hp]
      rcases hx with rfl | rfl <;> rfl
    · rw [hsched]
      rfl
    · exact ⟨trivial, fun j hj hj' => absurd hj' (Nat.not_lt.mpr hj), fun _ => ⟨i, hmain⟩⟩
  have hclaims : Claims (skeletons (update p .first .halted)) m' := by
    rw [skeletons_update]
    apply h.keeps_claims hp _ hs.mutexes hs.locks
    rcases hx with rfl | rfl <;> exact ⟨rfl, rfl, rfl, rfl⟩
  refine .here ⟨update p .first .halted, ?_, .inl hover, ?_⟩
  · exact {
      staged := h.staged.halts h.isAlive hs hsched
      led := { hled with entered := { hled.entered with } }
      claims := { hclaims with }
      books := by
        show Books xs _ m'.memory
        rw [hs.memory]
        apply h.books.stay _ fun _ hl => by cases hl
        rw [hp]
        rcases hx with rfl | rfl <;> rfl
      quiet := by
        intro _
        show sleepers m' = []
        rw [sleepers, hrendez]
        apply h.quiet
        rw [hp]
        rcases hx with rfl | rfl <;> rfl }
  · apply distance_lt_of_work h.mem_crew
    · show untaken xs m'.memory ≤ _
      rw [hs.memory]
    · rw [hp]
      rcases hx with rfl | rfl <;> simp [Point.work, Spot.rank]

/-- The main thread has joined all consumers. -/
theorem quits (h : Running n xs pace p .first m) (hn : n < UInt64.size)
    (hp : p .first = .resting false 0 (.joins n)) : m.Attains (Onward n xs pace p m) := by
  have htasks : (Spot.joins n).tasks n xs (number .first) (pace (number .first)) = [.exit] := by
    rw [Spot.tasks, List.drop_eq_nil_of_le (by simp [joins])]
    rfl
  apply h.rested hp
  intro r k e
  rw [htasks]
  apply Machine.attains_exit_main h.held h.staged.main.symm
  by_cases hlive : 1 < m.sched.live
  · apply Machine.attains_drain_again (by exact h.held) (by exact hlive)
    refine h.leads hn hp (q := .drains) rfl ⟨rfl, rfl, rfl, rfl⟩ rfl (fun _ hl => by cases hl)
      { Offstage.refl m with } (Sched.mild_stop .first m.sched) (fun _ => rfl)
      (Balanced.steady_stop h.held) ?_ rfl ?_ ?_
    · intro _
      exact h.quiet (by rw [hp]; rfl)
    · exact ⟨trivial, fun j hj hj' => absurd hj' (Nat.not_lt.mpr hj), fun _ => ⟨k, rfl⟩⟩
    · simp [Point.work, Spot.rank]
  · apply Machine.attains_drain (by exact h.held) (by exact hlive)
    exact h.concludes hn hp (.inl rfl) { Offstage.refl m with } rfl rfl rfl

/-- The main thread was woken while it waited for the others to end. -/
theorem wakes_draining (h : Running n xs pace p .first m) (hn : n < UInt64.size)
    (hp : p .first = .drains) : m.Attains (Onward n xs pace p m) := by
  obtain ⟨i, hmain⟩ := h.entered.mainOutcome (.inl (by rw [hp]; rfl))
  apply h.attains hp (by simp [Point.stack, Point.tasks])
  intro r k e
  by_cases hlive : 1 < m.sched.live
  · apply Machine.attains_drain_again h.held hlive
    exact h.lingers hp rfl { Aside.refl m with } rfl (Sched.mild_stop .first m.sched)
      (Balanced.steady_stop h.held) (h.stir_stop rfl (Nat.le_succ _))
  · apply Machine.attains_drain h.held hlive
    exact h.concludes hn hp (.inr rfl) { Offstage.refl m with } rfl rfl hmain

end Running

end Queue

end Baton
