import Baton.Proofs.Queue.Consumers
import Baton.Proofs.Workload.Joins

/-!
# Queue: the producer

What the main thread does with the queue: it puts the items one by one and wakes a sleeper after
each, and at the end it closes the queue and wakes all. From then on nobody is asleep.
-/

namespace Baton

namespace Queue

open Baton.Balanced (joins Claims Steady Led)
open Function (update)
open Machine (SameThreads)

variable {n : Nat} {xs todo : List Int} {pace : Nat → Pace} {p : ThreadId → Point} {m m' : Machine}
  {me : ThreadId} {q x : Point} {r : Reply} {k : Nat} {e : ErrorText}

/-- The stage of the main thread is entered. -/
theorem AtPoints.entered (h : AtPoints n xs pace p m) :
    (p .first).skeleton.stage.Entered n m := by
  have hentered := h.led.entered
  rwa [length_mates] at hentered

/-- A wakeup takes a sleeper out. -/
theorem sleepers_signal (m : Machine) :
    sleepers (m.signal (.cond nonempty)) = (sleepers m).tail := by
  rw [sleepers, sleepers, Machine.signal]
  dsimp only
  split <;> exact congrArg Rendez.sleepers ((Store.get_set ..).trans (if_pos rfl))

theorem sleepers_broadcast (m : Machine) : sleepers (m.broadcast (.cond nonempty)) = [] :=
  congrArg Rendez.sleepers ((Store.get_set ..).trans (if_pos rfl))

/-- Beside the scheduler and the rendezvous only what concerns the main thread alone differs. -/
structure Offstage (m m' : Machine) : Prop where
  host : m'.host = m.host
  code : m'.code = m.code
  pairing : m'.pairing = m.pairing
  threads : m'.threads = m.threads
  outcomes : m'.outcomes = m.outcomes
  mutexes : m'.mutexes = m.mutexes
  locks : m'.locks = m.locks
  memory : m'.memory = m.memory

theorem Offstage.refl (m : Machine) : Offstage m m := ⟨rfl, rfl, rfl, rfl, rfl, rfl, rfl, rfl⟩

namespace Running

/-- Only the main thread puts items. -/
theorem eq_first (h : Running n xs pace p me m) {pending : List Int} {closed : Bool}
    (ha : (p me).account xs = some (.producer pending closed)) : me = .first :=
  (h.books.right me _ ha).1

/-! ## Filling the queue -/

/-- The main thread puts an item. -/
theorem fills {y : Int} (h : Running n xs pace p me m)
    (hp : p me = .resting false 0 (.fills (y :: todo))) : m.Attains (Onward n xs pace p m) := by
  obtain rfl : me = .first := h.eq_first (by rw [hp]; rfl)
  apply h.rested hp
  intro r k e
  apply Machine.attains_push h.held h.staged.host (c := cell)
  · show innermostGuard (pause _ _ ++ _) = _
    rw [pause, innermostGuard_code]
    rfl
  intro reply
  refine h.strolls hp (q := .arriving (.filled (y :: todo))) rfl rfl ⟨rfl, rfl, rfl, rfl⟩ rfl ?_
    (.refl _ _) h.steady ?_ ?_
  · exact { Aside.refl m with }
  · have hbefore : (p .first).account xs = some (.producer (y :: todo) false) := by
      rw [hp]
      rfl
    exact h.books.push hbefore rfl rfl
  · apply h.less_of_rank hp
    · show taken (m.memory.setList _ _) = _
      simp [taken, log, cell]
    · simp [Spot.rank]

/-- The main thread closes the queue. -/
theorem closes (h : Running n xs pace p me m) (hp : p me = .resting false 0 (.fills [])) :
    m.Attains (Onward n xs pace p m) := by
  obtain rfl : me = .first := h.eq_first (by rw [hp]; rfl)
  apply h.rested hp
  intro r k e
  apply Machine.attains_setVar h.held h.staged.host
  refine h.strolls hp (q := .arriving (.filled [])) rfl rfl ⟨rfl, rfl, rfl, rfl⟩ rfl ?_ (.refl _ _)
    h.steady ?_ ?_
  · exact { Aside.refl m with }
  · apply h.books.close _ rfl rfl
    rw [hp]
    rfl
  · apply h.less_of_rank hp
    · rfl
    · simp [Spot.rank]

/-- The main thread gives the queue up. -/
theorem filled (h : Running n xs pace p me m) (hp : p me = .resting false 0 (.filled todo)) :
    m.Attains (Onward n xs pace p m) := by
  refine h.gives_up hp (.calls todo) rfl rfl rfl rfl rfl ?_
  simp [Spot.rank]

/-! ## Waking -/

theorem road_producer (n k : Nat) (xs : List Int) (pace : Pace) (todo : List Int) :
    road k pace (producer k pace todo ++ joins n) [.exit] =
      (Spot.asks (.producer todo)).tasks n xs k pace := by
  cases todo <;> rfl

/-- The main thread wakes a sleeper for the item that it has put. -/
theorem calls {y : Int} (h : Running n xs pace p me m)
    (hp : p me = .resting false 0 (.calls (y :: todo))) : m.Attains (Onward n xs pace p m) := by
  have hroused := Machine.roused_signal (.cond nonempty) m
  have hclaims : Claims (update (skeletons p) me (Spot.asks (.producer todo)).skeleton)
      (m.signal (.cond nonempty)) :=
    h.keeps_claims hp ⟨rfl, rfl, rfl, rfl⟩ hroused.mutexes hroused.locks
  apply h.rested hp
  intro r k e
  apply Machine.attains_condWake h.held h.staged.host
  rw [road_producer _ _ xs]
  refine h.goes_on hp (.asks (.producer todo)) rfl rfl rfl { hroused.toSameThreads with }
    hroused.pairing hroused.memory ?_ hroused.mild (hroused.turn.trans h.held) { hclaims with } ?_
  · intro hnil
    show sleepers (m.signal (.cond nonempty)) = []
    rw [sleepers_signal, hnil]
    rfl
  · simp [Point.work, Spot.rank]
    omega

/-! ## The main thread's stages -/

/-- The main thread comes to a point of another stage, and nobody is started. -/
theorem leads (h : Running n xs pace p .first m) (hn : n < UInt64.size) (hp : p .first = x)
    (hq : q.isAlive = true) (halike : x.skeleton.Alike q.skeleton)
    (haccount : q.account xs = x.account xs) (hrest : ∀ l, q.rest? = some l → x.rest? = some l)
    (hs : Offstage m m')
    (hmild : Sched.Mild (· ≠ .first) m.sched m'.sched)
    (hstop : m'.sched.isStopped .first = true → q.canStop = true) (hsteady : Steady m'.sched.turn)
    (hquiet : q.isQuiet = true → sleepers m' = [])
    (hstarted : q.skeleton.stage.started n = x.skeleton.stage.started n)
    (hentered : q.skeleton.stage.Entered n m')
    (hless : q.work n xs (untaken xs m.memory) < x.work n xs (untaken xs m.memory)) :
    (m'.withThread .first ⟨q.stack n xs pace .first, r, k, e⟩).Attains (Onward n xs pace p m) := by
  subst hp
  have hled : Led (mates n) (update (skeletons p) .first q.skeleton) m' :=
    h.led.lead (by rwa [length_mates]) (by rw [length_mates]; exact hstarted) hmild.ids hs.outcomes
      (by rwa [length_mates]) (.inl hq)
  have hclaims := h.claims.stay hs.mutexes hs.locks halike
  rw [← skeletons_update] at hled hclaims
  refine .here ⟨update p .first q, ?_, hsteady, ?_⟩
  · exact {
      staged := h.staged.move h.isAlive hq hs.host hs.code hs.pairing
        (fun t _ => by rw [hs.threads]) hmild hstop
      led := { hled with entered := { hled.entered with } }
      claims := { hclaims with }
      books := by
        show Books xs _ m'.memory
        rw [hs.memory]
        exact h.books.stay haccount fun l hl => h.books.rest .first l (hrest l hl)
      quiet := by
        rw [Function.update_self]
        exact hquiet }
  · apply distance_lt_of_work h.mem_crew
    · show untaken xs m'.memory ≤ _
      rw [hs.memory]
    · show Point.work n xs (untaken xs m'.memory) _ < _
      rw [hs.memory]
      exact hless

/-- The main thread wakes all sleepers of the closed queue. -/
theorem calls_all (h : Running n xs pace p me m) (hn : n < UInt64.size)
    (hp : p me = .resting false 0 (.calls [])) : m.Attains (Onward n xs pace p m) := by
  obtain rfl : me = .first := h.eq_first (by rw [hp]; rfl)
  have hroused := Machine.roused_broadcast (.cond nonempty) m
  have hentered := h.entered
  rw [hp] at hentered
  apply h.rested hp
  intro r k e
  apply Machine.attains_condWakeAll h.held h.staged.host
  refine h.leads hn hp (q := .arriving (.joins 0)) rfl ⟨rfl, rfl, rfl, rfl⟩ rfl
    (fun _ hl => by cases hl) ?_ (hroused.mild.mono fun _ _ => trivial)
    (h.canStop_of_mild hroused.mild) ?_ ?_ rfl ?_ ?_
  · exact { hroused with }
  · exact .inr ⟨.first, .inl (hroused.turn.trans h.held)⟩
  · exact fun _ => sleepers_broadcast m
  · exact ⟨Nat.zero_le _, hentered.handles, by simp [Point.skeleton, Spot.skeleton,
      Balanced.Point.stage]⟩
  · simp [Point.work, Spot.rank]
    omega

end Running

end Queue

end Baton
