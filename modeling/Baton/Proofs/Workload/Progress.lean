import Baton.Proofs.Program.Wakeups
import Baton.Proofs.Workload.Ends
import Baton.Proofs.Workload.Starts

/-!
# Balanced workloads: progress

Until the run is over a workload comes closer to its end. A running thread does so with each piece
of its work. While nobody runs there is somebody to run, since the threads cannot all be suspended:
a suspended one waits for another that lives, or for a guard that somebody has, and nobody waits for
a guard while having one.
-/

namespace Baton

namespace Balanced

variable {own : List Section} {others : List (List Section)} {p : ThreadId → Point}
  {m : Machine} {me t : ThreadId} {s : Section} {todo : List Section}

/-! ## Somebody can run -/

/-- A thread that is suspended in front of a section is queued for what it needs. -/
theorem AtPoints.mem_queue (h : AtPoints own others p m) (hsound : m.Sound)
    (hstop : m.sched.isStopped t = true) (hp : p t = .asking s todo) : t ∈ queue m s.target := by
  obtain ⟨a, hawait, hpending⟩ := hsound.registered t hstop
  obtain ⟨r, k, e, hth, -⟩ := h.staged.thread t (by rw [hp]; rfl)
  rw [Machine.stackOf, hth, hp, Point.stack] at hawait
  cases hi : s.target with
  | cell i =>
      rw [hi] at hawait
      obtain rfl : Await.mutex (.cell i) = a := Option.some.inj hawait
      exact hpending.1
  | write l =>
      rw [hi] at hawait
      obtain rfl : Await.writer (.table l) = a := Option.some.inj hawait
      exact hpending.2.1
  | read l =>
      rw [hi] at hawait
      obtain rfl : Await.reader (.table l) = a := Option.some.inj hawait
      exact hpending.2.1

/-- If all live threads are suspended, one of them is suspended in front of a section: the main
thread itself, or a thread that the main thread waits for. -/
theorem AtPoints.exists_asking (h : AtPoints own others p m) (hn : others.length < UInt64.size)
    (hsound : m.Sound) (hgoing : m.sched.turn ≠ .over)
    (hall : ∀ t, (p t).isAlive = true → m.sched.isStopped t = true) :
    ∃ t s todo, p t = .asking s todo := by
  have hworker : ∀ u, u ≠ .first → m.sched.isLive u = true → ∃ s todo, p u = .asking s todo := by
    intro u hu hlive
    have halive : (p u).isAlive = true := (h.staged.live u).symm.trans hlive
    have hworking := Point.isWorking_of_isWorker (h.led.worker u hu) halive
    exact Point.exists_asking_of_canStop hworking (h.staged.rested u (hall u halive))
  have hfirst := h.led.going.resolve_right hgoing
  have hstop := hall .first hfirst
  have hrested := h.staged.rested .first hstop
  obtain ⟨a, hawait, hpending⟩ := hsound.registered .first hstop
  obtain ⟨r, k, e, hth, -⟩ := h.staged.thread .first hfirst
  rw [Machine.stackOf, hth] at hawait
  cases hp : p .first with
  | asking s todo => exact ⟨.first, s, todo, hp⟩
  | awaiting c =>
      rw [hp] at hawait
      obtain rfl : Await.thread (spawned c) = a := Option.some.inj hawait
      have hc := h.led.entered.leads
      rw [hp] at hc
      have hc : c < others.length := hc
      obtain ⟨s, todo, hpc⟩ := hworker (spawned c) (spawned_ne_first (by omega)) hpending.1
      exact ⟨spawned c, s, todo, hpc⟩
  | draining =>
      rw [hp] at hawait
      obtain rfl : Await.others = a := Option.some.inj hawait
      obtain ⟨-, u, hu, hlive⟩ := hpending
      obtain ⟨s, todo, hpu⟩ := hworker u hu hlive
      exact ⟨u, s, todo, hpu⟩
  | _ =>
      rw [hp] at hrested
      cases hrested

/-- While nobody runs there is somebody to run. -/
theorem AtPoints.ready_ne_nil {giver : ThreadId} (h : AtPoints own others p m)
    (hn : others.length < UInt64.size) (hsound : m.Sound)
    (hturn : m.sched.turn = .seeking giver) : m.sched.ready ≠ [] := by
  intro hready
  have hall : ∀ t, (p t).isAlive = true → m.sched.isStopped t = true := by
    intro t ht
    rw [← h.staged.live] at ht
    exact hsound.coherent.isStopped_of_ready_nil (by simp [hturn, Turn.IsFree]) hready ht
  obtain ⟨t, s, todo, hp⟩ := h.exists_asking hn hsound (by simp [hturn]) hall
  have hqueued := h.mem_queue hsound (hall t (by rw [hp]; rfl)) hp
  obtain ⟨u, σ, hholds⟩ := h.claims.exists_holds_of_queued hqueued
  have htarget := h.claims.target?_of_holds hholds
  -- Whoever holds the guard is suspended too, in front of a section of the same target: it would be
  -- queued for what it holds.
  have hworking := Point.isWorking_of_target? htarget
  have hstop := hall u (Point.isAlive_of_isWorking hworking)
  obtain ⟨s', todo', hpu⟩ := Point.exists_asking_of_canStop hworking (h.staged.rested u hstop)
  rw [hpu] at htarget
  obtain rfl : s'.target = σ := Option.some.inj htarget
  have hqueued' := List.count_pos_iff.mpr (h.mem_queue hsound hstop hpu)
  have hclaim := h.claims.claim u s'.target
  rw [hpu, claim, Point.target?, if_pos rfl] at hclaim
  omega

/-! ## All threads -/

/-- The main thread goes on when it is before or after its sections. -/
theorem Running.main_onward (h : Running own others p .first m) (hn : others.length < UInt64.size)
    (hnot : (p .first).isWorking = false) : m.Attains (Onward own others p m) := by
  have hleads := h.led.entered.leads
  have halive := h.isAlive_of_held h.coherent h.held
  cases hp : p .first with
  | spawning c todo =>
      rw [hp] at hleads
      obtain rfl | hc := Nat.eq_or_lt_of_le hleads
      · exact h.begins_sections hn hp
      · exact h.spawns_next hn hc hp
  | joining c =>
      rw [hp] at hleads
      obtain rfl | hc := Nat.eq_or_lt_of_le hleads
      · exact h.quits hn hp
      · exact h.joins_next hn hc hp
  | awaiting c => exact h.wakes_joining hn hp
  | draining => exact h.wakes_draining hn hp
  | unborn todo | finished =>
      rw [hp] at halive
      cases halive
  | _ =>
      rw [hp] at hnot
      cases hnot

/-- The running thread comes closer to the end. -/
theorem Running.onward (h : Running own others p me m) (hn : others.length < UInt64.size) :
    m.Attains (Onward own others p m) := by
  by_cases hworking : (p me).isWorking = true
  · by_cases hlast : p me = .outside false 0 []
    · by_cases hme : me = .first
      · subst hme
        exact h.begins_joins hn hlast
      · exact h.ends hme hlast
    · exact h.works hworking hlast
  · have hme : me = .first := by
      by_contra hme
      have hworker := h.led.worker me hme
      have halive := h.isAlive_of_held h.coherent h.held
      exact hworking (Point.isWorking_of_isWorker hworker halive)
    subst hme
    exact h.main_onward hn (by simpa using hworking)

/-- The search for the next thread leaves all threads at their points. -/
theorem AtPoints.withSched {s : Sched} (h : AtPoints own others p m)
    (hmild : Sched.Mild (fun _ => True) m.sched s) (hgoing : m.sched.turn ≠ .over) :
    AtPoints own others p { m with sched := s } where
  staged := ⟨h.staged.withSched hmild, h.staged.stranger⟩
  led := { h.led with
    ids := hmild.ids.trans h.led.ids
    entered := { h.led.entered with }
    going := .inl (h.led.going.resolve_right hgoing) }
  claims := { h.claims with }
  books := h.books

/-- The search for the next thread ends with a running thread. -/
theorem AtPoints.search_onward {giver : ThreadId} (h : AtPoints own others p m)
    (hn : others.length < UInt64.size) (hsound : m.Sound) (hturn : m.sched.turn = .seeking giver) :
    m.Attains (Onward own others p m) := by
  apply Machine.attains_held hsound.coherent hturn h.staged.waiters (h.ready_ne_nil hn hsound hturn)
  intro s t hheld hmild halert
  have hsame : alertness others.length { m with sched := s } = alertness others.length m :=
    Finset.sum_congr rfl fun u _ => halert u
  have hless : searching { m with sched := s } < searching m := by
    simp [searching, hheld, hturn]
  exact .here ⟨p, h.withSched hmild (by simp [hturn]), .inr ⟨t, .inl hheld⟩,
    distance_lt_of_searching rfl hsame hless⟩

/-- Until the run is over it comes closer to its end. -/
theorem AtPoints.progress (h : AtPoints own others p m) (hn : others.length < UInt64.size)
    (hsound : m.Sound) (hsteady : Steady m.sched.turn) (hgoing : m.sched.turn ≠ .over) :
    m.Attains (Onward own others p m) := by
  obtain ⟨t, hheld | hseeking⟩ := hsteady.resolve_left hgoing
  · have hrunning : Running own others p t m :=
      { h with coherent := hsound.coherent, held := hheld }
    exact hrunning.onward hn
  · exact h.search_onward hn hsound hseeking

/-- The identities last for all threads of a workload. -/
theorem AtPoints.handed_le (h : AtPoints own others p m) (hn : others.length < UInt64.size) :
    m.sched.ids.handed ≤ UInt64.size := by
  have hstarted := Stage.started_le h.led.entered.leads
  rw [h.led.ids]
  show (p .first).stage.started others.length + 1 ≤ UInt64.size
  omega

/-- A workload comes to the end of its run. -/
theorem AtPoints.attains_over (h : AtPoints own others p m) (hn : others.length < UInt64.size)
    (hreaches : Machine.Reaches (program own others).machine m) (hsteady : Steady m.sched.turn) :
    m.Attains fun m' => m'.sched.turn = .over ∧ ∃ p', AtPoints own others p' m' ∧
      Machine.Reaches (program own others).machine m' := by
  -- Each round ends closer to the end, so the induction is on the distance.
  induction hd : distance others.length p m using WellFoundedLT.induction generalizing p m with
  | ind d ih =>
      by_cases hover : m.sched.turn = .over
      · exact .here ⟨hover, p, h, hreaches⟩
      · have hsound := hreaches.sound (h.handed_le hn)
        apply ((h.progress hn hsound hsteady hover).reaches hreaches).trans
        rintro m' ⟨⟨p', h', hsteady', hless⟩, hreaches'⟩
        exact ih _ (hd ▸ hless) h' hreaches' hsteady' rfl

end Balanced

end Baton
