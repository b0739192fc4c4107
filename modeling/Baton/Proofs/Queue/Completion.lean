import Baton.Proofs.Program.Wakeups
import Baton.Proofs.Queue.Crew
import Baton.Proofs.Workload.Progress

/-!
# Queue: completion

Until the run is over the threads come closer to its end. While nobody runs there is somebody to
run, since the threads cannot all be suspended: nobody waits for the queue while having it, so all
consumers that live would be asleep, and the main thread would wait for one of them; but it does so
only after it has woken all sleepers of the closed queue, and from then on nobody falls asleep. So
the run comes to its end, where the closed queue is empty and all items have been taken.
-/

namespace Baton

namespace Queue

open Baton.Balanced (crew number spawned Claims Steady Led searching first_mem_crew
  spawned_mem_crew spawned_ne_first)
open Function (update)

variable {n : Nat} {xs : List Int} {pace : Nat → Pace} {p : ThreadId → Point} {m : Machine}
  {me t : ThreadId} {i : Nat}

/-! ## Somebody can run -/

/-- A thread that is suspended in front of the queue is queued for it. -/
theorem AtPoints.mem_waiting (h : AtPoints n xs pace p m) (hsound : m.Sound)
    (hstop : m.sched.isStopped t = true) (htarget : (skeletons p t).target? ≠ none) :
    t ∈ (m.mutexes.get (.cell cell)).waiting := by
  have hcan := h.staged.rested t hstop
  obtain ⟨a, hawait, hpending⟩ := hsound.registered t hstop
  have halive : (p t).isAlive = true := by
    rw [← h.staged.live]
    exact Sched.isLive_of_isStopped hstop
  obtain ⟨r, k, e, hth, -⟩ := h.staged.thread t halive
  rw [Machine.stackOf, hth, Point.stack] at hawait
  have hof : Await.of ((p t).tasks n xs (number t) (pace (number t))) =
      some (.mutex (.cell cell)) := by
    rw [skeletons] at htarget
    cases hp : p t with
    | asking g | returning => rfl
    | asleep | awaits | drains =>
        rw [hp] at htarget
        exact absurd rfl htarget
    | _ =>
        rw [hp] at hcan
        cases hcan
  obtain rfl : Await.mutex (.cell cell) = a := Option.some.inj (hof.symm.trans hawait)
  exact hpending.1

/-- If all live threads are suspended, nobody waits for the queue: whoever has it would be queued
for it as well. -/
theorem AtPoints.target?_eq_none (h : AtPoints n xs pace p m) (hsound : m.Sound)
    (hall : ∀ t, (p t).isAlive = true → m.sched.isStopped t = true)
    (hstop : m.sched.isStopped t = true) : (skeletons p t).target? = none := by
  by_contra htarget
  have hqueued : t ∈ Balanced.queue m (.cell cell) := h.mem_waiting hsound hstop htarget
  obtain ⟨u, σ, hholds⟩ := h.claims.exists_holds_of_queued hqueued
  have hσ := h.claims.target?_of_holds hholds
  have halive := Balanced.Point.isAlive_of_isWorking (Balanced.Point.isWorking_of_target? hσ)
  have hwaiting := h.mem_waiting hsound (hall u halive) (by simp [hσ])
  have hclaim := h.claims.claim u (.cell cell)
  have hcount := List.count_pos_iff.mpr hwaiting
  obtain rfl : σ = .cell cell := by
    by_contra hne
    have hzero : Balanced.claim u m (.cell cell) = 0 := by
      rw [hclaim, hσ, if_neg]
      simpa using hne
    rw [Balanced.claim_cell] at hzero
    omega
  rw [Balanced.claim, hσ, if_pos rfl] at hclaim
  have hqueue : (Balanced.queue m (.cell cell)).count u =
      (m.mutexes.get (.cell cell)).waiting.count u := rfl
  omega

/-- A consumer that is suspended, but not in front of the queue, is asleep. -/
theorem AtPoints.mem_sleepers (h : AtPoints n xs pace p m) (hsound : m.Sound)
    (hstop : m.sched.isStopped t = true) (htarget : (skeletons p t).target? = none)
    (ht : t ≠ .first) : t ∈ sleepers m := by
  have hcan := h.staged.rested t hstop
  obtain ⟨a, hawait, hpending⟩ := hsound.registered t hstop
  have halive : (p t).isAlive = true := by
    rw [← h.staged.live]
    exact Sched.isLive_of_isStopped hstop
  obtain ⟨r, k, e, hth, -⟩ := h.staged.thread t halive
  rw [Machine.stackOf, hth, Point.stack] at hawait
  have hright := h.books.right t
  rw [skeletons] at htarget
  cases hp : p t with
  | asleep =>
      rw [hp] at hawait
      obtain rfl : Await.rendez (.cond nonempty) = a := Option.some.inj hawait
      exact hpending
  | asking g | returning =>
      rw [hp] at htarget
      cases htarget
  | awaits | drains =>
      rw [hp] at hright
      exact absurd (hright _ rfl).1 ht
  | _ =>
      rw [hp] at hcan
      cases hcan

/-- The main thread, when it is suspended but not in front of the queue, waits for a consumer that
lives, and has woken all sleepers. -/
theorem AtPoints.waits_for (h : AtPoints n xs pace p m) (hn : n < UInt64.size) (hsound : m.Sound)
    (hstop : m.sched.isStopped .first = true) (htarget : (skeletons p .first).target? = none) :
    (p .first).isQuiet = true ∧ ∃ u, u ≠ .first ∧ m.sched.isLive u = true := by
  have hcan := h.staged.rested .first hstop
  obtain ⟨a, hawait, hpending⟩ := hsound.registered .first hstop
  have halive : (p .first).isAlive = true := by
    rw [← h.staged.live]
    exact Sched.isLive_of_isStopped hstop
  obtain ⟨r, k, e, hth, -⟩ := h.staged.thread .first halive
  rw [Machine.stackOf, hth, Point.stack] at hawait
  obtain ⟨pending, closed, hmain⟩ := h.books.main
  have hleads := h.entered.leads
  rw [skeletons] at htarget
  cases hp : p .first with
  | awaits c =>
      rw [hp] at hawait hleads
      obtain rfl : Await.thread (spawned c) = a := Option.some.inj hawait
      have hc : c < n := hleads
      exact ⟨rfl, spawned c, spawned_ne_first (by omega), hpending.1⟩
  | drains =>
      rw [hp] at hawait
      obtain rfl : Await.others = a := Option.some.inj hawait
      exact ⟨rfl, hpending.2⟩
  | asleep =>
      rw [hp] at hmain
      cases hmain
  | asking g | returning =>
      rw [hp] at htarget
      cases htarget
  | _ =>
      rw [hp] at hcan
      cases hcan

/-- While nobody runs there is somebody to run. -/
theorem AtPoints.ready_ne_nil {giver : ThreadId} (h : AtPoints n xs pace p m)
    (hn : n < UInt64.size) (hsound : m.Sound) (hturn : m.sched.turn = .seeking giver) :
    m.sched.ready ≠ [] := by
  intro hready
  have hstops : ∀ t, m.sched.isLive t = true → m.sched.isStopped t = true := fun t ht =>
    hsound.coherent.isStopped_of_ready_nil (by simp [hturn, Turn.IsFree]) hready ht
  have hall : ∀ t, (p t).isAlive = true → m.sched.isStopped t = true := by
    intro t ht
    rw [← h.staged.live] at ht
    exact hstops t ht
  have hnone : ∀ t, m.sched.isStopped t = true → (skeletons p t).target? = none :=
    fun t ht => h.target?_eq_none hsound hall ht
  have hfirst := hall .first (h.led.going.resolve_right (by simp [hturn]))
  obtain ⟨hquiet, u, hu, hlive⟩ := h.waits_for hn hsound hfirst (hnone .first hfirst)
  have hstop := hstops u hlive
  have hmem := h.mem_sleepers hsound hstop (hnone u hstop) hu
  rw [h.quiet hquiet] at hmem
  exact absurd hmem List.not_mem_nil

/-! ## All threads -/

/-- A thread that has rested does the next piece of its work. -/
theorem Running.works {s : Spot} (h : Running n xs pace p me m) (hn : n < UInt64.size)
    (hp : p me = .resting false 0 s) : m.Attains (Onward n xs pace p m) := by
  have hleads : me = .first → s.skeleton.stage.Leads n := by
    rintro rfl
    have hleads := h.entered.leads
    rwa [hp] at hleads
  have hright := h.books.right me
  rw [hp] at hright
  cases s with
  | turns left =>
      cases left with
      | false => exact h.turns hp
      | true => exact h.turns_out hp
  | asks g => exact h.asks hp
  | looks => exact h.looks hp
  | takes => exact h.takes hp
  | leaves left => exact h.leaves hp
  | ends => exact h.ends hp
  | fills todo =>
      cases todo with
      | nil => exact h.closes hp
      | cons y todo => exact h.fills hp
  | filled todo => exact h.filled hp
  | calls todo =>
      cases todo with
      | nil => exact h.calls_all hn hp
      | cons y todo => exact h.calls hp
  | starts c =>
      obtain rfl := (hright _ rfl).1
      obtain rfl | hc := Nat.eq_or_lt_of_le (hleads rfl)
      · exact h.starts_last hn hp
      · exact h.starts_next hn hc hp
  | joins c =>
      obtain rfl := (hright _ rfl).1
      obtain rfl | hc := Nat.eq_or_lt_of_le (hleads rfl)
      · exact h.quits hn hp
      · exact h.joins_next hn hc hp

/-- The running thread comes closer to the end. -/
theorem Running.onward (h : Running n xs pace p me m) (hn : n < UInt64.size) :
    m.Attains (Onward n xs pace p m) := by
  have halive := h.isAlive
  have hright := h.books.right me
  cases hp : p me with
  | arriving s => exact h.begins_rest hp
  | resting away l s =>
      cases away with
      | true => exact h.comes_back hp
      | false =>
          cases l with
          | zero => exact h.works hn hp
          | succ l => exact h.goes_away hp
  | asking g => exact h.wakes_asking hp
  | asleep => exact h.wakes_up hp
  | returning => exact h.wakes_returning hp
  | awaits c =>
      rw [hp] at hright
      obtain rfl := (hright _ rfl).1
      exact h.wakes_joining hn hp
  | drains =>
      rw [hp] at hright
      obtain rfl := (hright _ rfl).1
      exact h.wakes_draining hn hp
  | _ =>
      rw [hp] at halive
      cases halive

/-- The search for the next thread leaves all threads at their points. -/
theorem AtPoints.withSched {s : Sched} (h : AtPoints n xs pace p m)
    (hmild : Sched.Mild (fun _ => True) m.sched s) (hgoing : m.sched.turn ≠ .over) :
    AtPoints n xs pace p { m with sched := s } where
  staged := ⟨h.staged.withSched hmild, h.staged.pairing, h.staged.stranger⟩
  led := { h.led with
    ids := hmild.ids.trans h.led.ids
    entered := { h.led.entered with }
    going := .inl (h.led.going.resolve_right hgoing) }
  claims := { h.claims with }
  books := h.books
  quiet := h.quiet

/-- The search for the next thread ends with a running thread. -/
theorem AtPoints.search_onward {giver : ThreadId} (h : AtPoints n xs pace p m)
    (hn : n < UInt64.size) (hsound : m.Sound) (hturn : m.sched.turn = .seeking giver) :
    m.Attains (Onward n xs pace p m) := by
  apply Machine.attains_held hsound.coherent hturn h.staged.waiters (h.ready_ne_nil hn hsound hturn)
  intro s t hheld hmild halert
  have hsame : stir n { m with sched := s } = stir n m := by
    have halert : Balanced.alertness n { m with sched := s } = Balanced.alertness n m :=
      Finset.sum_congr rfl fun u _ => halert u
    rw [stir, stir, halert]
  have hless : searching { m with sched := s } < searching m := by
    simp [searching, hheld, hturn]
  exact .here ⟨p, h.withSched hmild (by simp [hturn]), .inr ⟨t, .inl hheld⟩,
    distance_lt_of_searching rfl rfl hsame hless⟩

/-- Until the run is over it comes closer to its end. -/
theorem AtPoints.progress (h : AtPoints n xs pace p m) (hn : n < UInt64.size) (hsound : m.Sound)
    (hsteady : Steady m.sched.turn) (hgoing : m.sched.turn ≠ .over) :
    m.Attains (Onward n xs pace p m) := by
  obtain ⟨t, hheld | hseeking⟩ := hsteady.resolve_left hgoing
  · have hrunning : Running n xs pace p t m :=
      { h with coherent := hsound.coherent, held := hheld }
    exact hrunning.onward hn
  · exact h.search_onward hn hsound hseeking

/-- The identities last for all threads of the program. -/
theorem AtPoints.handed_le (h : AtPoints n xs pace p m) (hn : n < UInt64.size) :
    m.sched.ids.handed ≤ UInt64.size := by
  have hstarted := Balanced.Stage.started_le h.led.entered.leads
  rw [length_mates] at hstarted
  rw [h.led.ids, length_mates]
  show (skeletons p .first).stage.started n + 1 ≤ UInt64.size
  omega

/-- The program comes to the end of its run. -/
theorem AtPoints.attains_over (h : AtPoints n xs pace p m) (hn : n < UInt64.size)
    (hreaches : Machine.Reaches (program n xs pace).machine m) (hsteady : Steady m.sched.turn) :
    m.Attains fun m' => m'.sched.turn = .over ∧ ∃ p', AtPoints n xs pace p' m' ∧
      Machine.Reaches (program n xs pace).machine m' := by
  -- Each round ends closer to the end, so the induction is on the distance.
  induction hd : distance n xs p m using WellFoundedLT.induction generalizing p m with
  | ind d ih =>
      by_cases hover : m.sched.turn = .over
      · exact .here ⟨hover, p, h, hreaches⟩
      · have hsound := hreaches.sound (h.handed_le hn)
        apply ((h.progress hn hsound hsteady hover).reaches hreaches).trans
        rintro m' ⟨⟨p', h', hsteady', hless⟩, hreaches'⟩
        exact ih _ (hd ▸ hless) h' hreaches' hsteady' rfl

/-! ## The start -/

/-- Where a thread is at the start of the program. -/
def origin (n : Nat) (t : ThreadId) : Point :=
  if t = .first then .arriving (.starts 0) else if t ∈ crew n then .unborn else .absent

theorem origin_first (n : Nat) : origin n .first = .arriving (.starts 0) := if_pos rfl

theorem origin_spawned (hn : n < UInt64.size) (hi : i < n) : origin n (spawned i) = .unborn := by
  rw [origin, if_neg (spawned_ne_first (by omega)), if_pos (spawned_mem_crew hi)]

/-- A statement about where threads start holds if it does in each of the three cases. -/
theorem origin_cases {P : Point → Prop} (ht : t ≠ .first) (hunborn : P .unborn)
    (habsent : P .absent) : P (origin n t) := by
  rw [origin, if_neg ht]
  split
  · exact hunborn
  · exact habsent

theorem isAlive_origin (n : Nat) (t : ThreadId) : (origin n t).isAlive = decide (t = .first) := by
  by_cases ht : t = .first
  · rw [ht, origin_first]
    rfl
  · rw [decide_eq_false ht]
    exact origin_cases (P := fun x => x.isAlive = false) ht rfl rfl

theorem staged_machine : Staged n xs pace (origin n) (program n xs pace).machine where
  toPlaced := by
    apply Machine.placed_machine rfl (isAlive_origin n)
    rw [origin_first]
    show ((paced 0 (pace 0) _).map Task.instr ++ [.exit]) = _
    rw [paced_tasks, List.append_assoc]
    rfl
  pairing := rfl
  stranger t := by
    rw [origin]
    split
    · rename_i ht
      rw [ht]
      exact iff_of_false (by simp) (not_not_intro (first_mem_crew n))
    · split <;> simp [*]

theorem led_machine (hn : n < UInt64.size) :
    Led (mates n) (skeletons (origin n)) (program n xs pace).machine where
  ids := by
    rw [skeletons, origin_first]
    rfl
  entered := by
    rw [skeletons, origin_first]
    exact ⟨Nat.zero_le _, fun i _ hi => absurd hi (Nat.not_lt_zero i), by simp [Point.skeleton,
      Spot.skeleton, Balanced.Point.stage]⟩
  worker t ht := origin_cases (P := fun x => x.skeleton.stage.isWorker = true) ht rfl rfl
  unborn i hi _ := by
    rw [length_mates] at hi
    rw [skeletons, origin_spawned hn hi, getElem_mates]
    rfl
  born i hi := by
    rw [skeletons, origin_first] at hi
    exact absurd hi (Nat.not_lt_zero i)
  outcomes i hi hfinished := by
    rw [length_mates] at hi
    rw [skeletons, origin_spawned hn hi] at hfinished
    cases hfinished
  going := by
    rw [skeletons, origin_first]
    exact .inl rfl

theorem claims_machine : Claims (skeletons (origin n)) (program n xs pace).machine := by
  have htarget : ∀ t, (skeletons (origin n) t).target? = none := by
    intro t
    rw [skeletons]
    by_cases ht : t = .first
    · rw [ht, origin_first]
      rfl
    · exact origin_cases (P := fun x => x.skeleton.target? = none) ht rfl rfl
  exact {
    inner := fun _ => rfl
    unowned := fun _ _ => rfl
    regular := fun _ => RwState.regular_free
    claim := by
      intro t τ
      rw [htarget]
      cases τ <;> rfl
    holding := by
      intro t τ h
      have hnone := Balanced.Point.target?_of_holding? h
      rw [htarget] at hnone
      cases hnone }

theorem books_machine : Books xs (origin n) (program n xs pace).machine.memory where
  right t a ha := by
    by_cases ht : t = .first
    · rw [ht, origin_first] at ha
      obtain rfl := Option.some.inj ha
      exact ⟨ht, rfl, rfl, by simp⟩
    · have hconsumer : a = .consumer false false :=
        origin_cases (P := fun x => x.account xs = some a → a = .consumer false false) ht
          (fun h => (Option.some.inj h).symm) (fun h => by cases h) ha
      rw [hconsumer]
      exact ⟨rfl, by simp, by simp⟩
  main := ⟨xs, false, by rw [origin_first]; rfl⟩
  rest t l hl := by
    by_cases ht : t = .first
    · rw [ht, origin_first] at hl
      cases hl
    · exact origin_cases (P := fun x => x.rest? = some l → _) ht (fun h => by cases h)
        (fun h => by cases h) hl
  sum := rfl
  count := rfl

/-- At the start the threads are at the points where they begin. -/
theorem atPoints_machine (hn : n < UInt64.size) :
    AtPoints n xs pace (origin n) (program n xs pace).machine where
  staged := staged_machine
  led := led_machine hn
  claims := claims_machine
  books := books_machine
  quiet := by
    rw [origin_first]
    intro hquiet
    cases hquiet

/-! ## The end -/

/-- The program has come to its end, and all items have been delivered. -/
structure Delivered (n : Nat) (xs : List Int) (m : Machine) : Prop where
  ended : m.sched.turn = .over
  main : ∃ k, m.mainOutcome = some (.finished k)
  consumers : ∀ i, i < n → ∃ k, m.outcomes.get? (spawned i) = some (.finished k)
  /-- Every item was taken once, and in order. -/
  taken : taken m.memory = xs
  items : items m.memory = []
  sum : m.memory.var sumVar = xs.sum
  count : m.memory.var countVar = xs.length

/-- When the run is over the main thread has ended it, and all consumers have left. -/
theorem AtPoints.gone_of_over (h : AtPoints n xs pace p m) (hn : n < UInt64.size)
    (hc : m.sched.Coherent) (hover : m.sched.turn = .over) :
    p .first = .halted ∧ ∀ i, i < n → p (spawned i) = .gone := by
  have hended : ∀ u, u ∈ crew n → p u = .unborn ∨ p u = .gone ∨ p u = .halted := by
    intro u hu
    have halive : (p u).isAlive = false := by
      rw [← h.staged.live]
      exact hc.isLive_of_live_eq_zero (hc.live_of_over hover) u
    cases hp : p u with
    | unborn => exact .inl rfl
    | gone => exact .inr (.inl rfl)
    | halted => exact .inr (.inr rfl)
    | absent => exact absurd hu ((h.staged.stranger u).mp hp)
    | arriving s | resting _ _ s =>
        rw [hp] at halive
        cases s <;> cases halive
    | _ =>
        rw [hp] at halive
        cases halive
  have hfirst : p .first = .halted := by
    obtain ⟨pending, closed, hmain⟩ := h.books.main
    rcases hended .first (first_mem_crew n) with hp | hp | hp
    · rw [hp] at hmain
      cases hmain
    · rw [hp] at hmain
      cases hmain
    · exact hp
  refine ⟨hfirst, fun i hi => ?_⟩
  rcases hended (spawned i) (spawned_mem_crew hi) with hp | hp | hp
  · have hborn := h.led.born i (by rw [skeletons, hfirst, length_mates]; exact hi) []
    rw [skeletons, hp] at hborn
    exact absurd rfl hborn
  · exact hp
  · have hright := h.books.right (spawned i)
    rw [hp] at hright
    exact absurd (hright _ rfl).1 (spawned_ne_first (by omega))

/-- When the run is over a consumer has left, so the closed queue is empty. -/
theorem AtPoints.delivered (h : AtPoints n xs pace p m) (hpos : 0 < n) (hn : n < UInt64.size)
    (hc : m.sched.Coherent) (hover : m.sched.turn = .over) : Delivered n xs m := by
  obtain ⟨hfirst, hgone⟩ := h.gone_of_over hn hc hover
  have hitems : items m.memory = [] := by
    have hright := h.books.right (spawned 0)
    rw [hgone 0 hpos] at hright
    exact ((hright _ rfl).2.1 rfl).1
  have htaken : taken m.memory = xs := by
    have hright := h.books.right .first
    rw [hfirst] at hright
    obtain ⟨-, hflow, -⟩ := hright _ rfl
    rwa [hitems, List.append_nil, List.append_nil] at hflow
  exact {
    ended := hover
    main := h.entered.mainOutcome (.inr (by rw [hfirst]; rfl))
    consumers := by
      intro i hi
      apply h.led.outcomes i (by rwa [length_mates])
      rw [skeletons, hgone i hi]
      rfl
    taken := htaken
    items := hitems
    sum := by rw [h.books.sum, htaken]
    count := by rw [h.books.count, htaken] }

/-- A run that has delivered all items is reported as ended. -/
theorem Delivered.ending {k : Nat} (h : Delivered n xs ((program n xs pace).final k)) :
    ∃ i, ((program n xs pace).run k).ending = .ended (.finished i) := by
  obtain ⟨i, hmain⟩ := h.main
  exact ⟨i, Machine.ending_run h.ended hmain⟩

/-- A queue with at least one consumer delivers all its items, whatever the paces of its threads: at
no moment is there nobody to run, and from some moment on the run is over and reported as ended, all
threads have finished, every item has been taken once, in the order in which they were put, and the
sum and the count of the items taken are those of all items. -/
theorem delivers_every_item (n : Nat) (xs : List Int) (pace : Nat → Pace) (hpos : 0 < n)
    (hn : n < UInt64.size) :
    (∀ k, ((program n xs pace).final k).sched.turn.isIdle = false) ∧
      ∃ j, ∀ k, j ≤ k → Delivered n xs ((program n xs pace).final k) ∧
        ∃ i, ((program n xs pace).run k).ending = .ended (.finished i) := by
  have hat : AtPoints n xs pace (origin n) (program n xs pace).machine := atPoints_machine hn
  have hattains := hat.attains_over hn (.refl _) (.inr ⟨.first, .inl rfl⟩)
  obtain ⟨hbusy, j, hover⟩ := hattains.run fun m h =>
    ⟨Machine.step_eq_none h.1, by rw [h.1]; rfl⟩
  refine ⟨hbusy, j, fun k hk => ?_⟩
  obtain ⟨hover, p', h', hreaches⟩ := hover k hk
  have hdelivered :=
    h'.delivered hpos hn (hreaches.sound (h'.handed_le hn)).coherent hover
  exact ⟨hdelivered, hdelivered.ending⟩

/-- Two consumers for two items. The main thread yields after each item, the first consumer at every
other rest, and the second one never. -/
theorem delivers_every_item_yielding :
    0 < 2 ∧ 2 < UInt64.size ∧ ∃ pace : Nat → Pace, pace 0 4 = 1 ∧ pace 1 1 = 1 ∧ pace 2 = .steady ∧
      (∀ k, ((program 2 [3, 5] pace).final k).sched.turn.isIdle = false) ∧
      ∃ j, ∀ k, j ≤ k → ∃ m, m = (program 2 [3, 5] pace).final k ∧ m.sched.turn = .over ∧
        taken m.memory = [3, 5] ∧ m.memory.var sumVar = 8 ∧ m.memory.var countVar = 2 := by
  have hn : 2 < UInt64.size := by decide
  let pace : Nat → Pace := fun
    | 0 => .afterItems 2
    | 1 => fun k => k % 2
    | _ => .steady
  obtain ⟨hbusy, j, hdelivered⟩ := delivers_every_item 2 [3, 5] pace (by decide) hn
  refine ⟨by decide, hn, pace, rfl, rfl, rfl, hbusy, j, fun k hk => ⟨_, rfl, ?_⟩⟩
  obtain ⟨h, -⟩ := hdelivered k hk
  exact ⟨h.ended, h.taken, h.sum, h.count⟩

end Queue

end Baton
