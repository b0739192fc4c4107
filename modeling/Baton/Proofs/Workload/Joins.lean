import Baton.Proofs.Program.Lifetime
import Baton.Proofs.Workload.Sections

/-!
# Balanced workloads: joining threads

What the main thread does after its sections: it joins the others one by one. The next one has
finished, and its outcome is fetched, or the main thread suspends until then.
-/

namespace Baton

namespace Balanced

open Function (update)
open Machine (SameObjects)

variable {own : List Section} {others : List (List Section)} {p : ThreadId → Point}
  {m m' : Machine} {x q : Point} {r : Reply} {c k : Nat} {e : ErrorText} {todo : List Section}

theorem Stage.started_le {n : Nat} {s : Stage} (h : s.Leads n) : s.started n ≤ n := by
  cases s <;> first | exact h | exact Nat.le_refl n

/-! ## The main thread's stages -/

/-- Beside the scheduler only what concerns the main thread alone differs. -/
structure SameCrew (m m' : Machine) : Prop extends SameObjects m m' where
  threads : m'.threads = m.threads
  outcomes : m'.outcomes = m.outcomes

theorem SameCrew.refl (m : Machine) : SameCrew m m :=
  ⟨⟨rfl, rfl, rfl, rfl, rfl, rfl, rfl⟩, rfl, rfl⟩

/-- The main thread comes to another stage, and nobody is started. -/
theorem Led.lead (h : Led others p m) (hn : others.length < UInt64.size)
    (hstarted : q.stage.started others.length = (p .first).stage.started others.length)
    (hids : m'.sched.ids = m.sched.ids) (houtcomes : m'.outcomes = m.outcomes)
    (hentered : q.stage.Entered others.length m')
    (hgoing : q.isAlive = true ∨ m'.sched.turn = .over) : Led others (update p .first q) m' := by
  have hother : ∀ i, i < others.length → update p .first q (spawned i) = p (spawned i) :=
    fun i hi => Function.update_of_ne (spawned_ne_first (by omega)) ..
  have hstarted_le := Stage.started_le h.entered.leads
  exact {
    ids := by
      rw [Function.update_self, hids, hstarted]
      exact h.ids
    entered := by
      rw [Function.update_self]
      exact hentered
    worker := by
      intro t ht
      rw [Function.update_of_ne ht]
      exact h.worker t ht
    unborn := by
      intro i hi
      rw [Function.update_self, hstarted, hother i hi]
      exact h.unborn i hi
    born := by
      intro i
      rw [Function.update_self, hstarted]
      intro hi
      rw [hother i (Nat.lt_of_lt_of_le hi hstarted_le)]
      exact h.born i hi
    outcomes := by
      intro i hi
      rw [hother i hi, houtcomes]
      exact h.outcomes i hi
    going := by
      rw [Function.update_self]
      exact hgoing }

/-- The main thread goes on before or after its sections. -/
theorem Running.leads (h : Running own others p .first m) (hn : others.length < UInt64.size)
    (hp : p .first = x) (hq : q.isAlive = true) (htold : q.isTold = false) (halike : x.Alike q)
    (hs : SameCrew m m') (hmild : Sched.Mild (· ≠ .first) m.sched m'.sched)
    (hstop : m'.sched.isStopped .first = true → q.canStop = true)
    (hstarted : q.stage.started others.length = x.stage.started others.length)
    (hentered : q.stage.Entered others.length m') :
    AtPoints own others (update p .first q)
      (m'.withThread .first ⟨q.stack others.length .first, r, k, e⟩) := by
  subst hp
  have hclaims := h.claims.stay hs.mutexes hs.locks halike
  have hbooks := h.books.stay halike
  rw [← hs.memory] at hbooks
  have hreply : q.isTold = true → r = .null := by
    rw [htold]
    intro h
    cases h
  exact {
    staged := h.staged.move (h.isAlive_of_held h.coherent h.held) hq hs.host hs.code
      (fun t _ => by rw [hs.threads]) hmild hstop hreply
    led := h.led.lead hn hstarted hmild.ids hs.outcomes { hentered with } (.inl hq)
    claims := { hclaims with }
    books := hbooks }

/-- The main thread comes to another point before or after its sections. -/
theorem Running.proceeds (h : Running own others p .first m) (hn : others.length < UInt64.size)
    (hp : p .first = x) (hq : q.isAlive = true) (htold : q.isTold = false) (halike : x.Alike q)
    (hstarted : q.stage.started others.length = x.stage.started others.length)
    (hless : q.work others.length .first < x.work others.length .first)
    (hs : SameCrew m m') (hmild : Sched.Mild (· ≠ .first) m.sched m'.sched)
    (hstop : m'.sched.isStopped .first = true → q.canStop = true) (hsteady : Steady m'.sched.turn)
    (hentered : q.stage.Entered others.length m') :
    (m'.withThread .first ⟨q.stack others.length .first, r, k, e⟩).Attains
      (Onward own others p m) := by
  have hat : AtPoints own others (update p .first q)
      (m'.withThread .first ⟨q.stack others.length .first, r, k, e⟩) :=
    h.leads hn hp hq htold halike hs hmild hstop hstarted hentered
  subst hp
  exact .here (hat.onward h.mem_crew hless hsteady)

/-- The main thread suspends again at the point where it is. -/
theorem Running.lingers {s : Sched} (h : Running own others p .first m)
    (hn : others.length < UInt64.size) (hp : p .first = q) (hq : q.canStop = true)
    (htold : q.isTold = false) (hs : SameCrew m m') (hmild : Sched.Mild (· ≠ .first) m.sched s)
    (hrun : s.isRunning .first = true) (hturn : s.turn = .held .first)
    (halert : ∀ t, s.alertness t = m.sched.alertness t) (hsched : m'.sched = s.stop .first)
    (hentered : q.stage.Entered others.length m') :
    (m'.withThread .first ⟨q.stack others.length .first, r, k, e⟩).Attains
      (Onward own others p m) := by
  have halive : q.isAlive = true := by
    rw [← hp]
    exact h.isAlive_of_held h.coherent h.held
  have hat : AtPoints own others (update p .first q)
      (m'.withThread .first ⟨q.stack others.length .first, r, k, e⟩) := by
    apply h.leads hn hp halive htold ⟨rfl, rfl, rfl, rfl⟩ hs _ (fun _ => hq) rfl hentered
    rw [hsched]
    exact hmild.trans (Sched.mild_stop .first s)
  rw [← hp, Function.update_eq_self] at hat
  refine .here ⟨p, hp ▸ hat, ?_, distance_lt_of_alertness rfl ?_⟩
  · show Steady m'.sched.turn
    rw [hsched]
    exact steady_stop hturn
  · exact alertness_stop h.mem_crew hrun halert hsched

/-! ## Joining -/

/-- The main thread has started all the others. -/
theorem Running.begins_sections (h : Running own others p .first m)
    (hn : others.length < UInt64.size) (hp : p .first = .spawning others.length todo) :
    m.Attains (Onward own others p m) := by
  have hstack : (Point.spawning others.length todo).stack others.length .first =
      (Point.outside false 0 todo).stack others.length .first := by
    simp [Point.stack, spawns, List.drop_eq_nil_of_le]
  have hhandles := h.led.entered.handles
  rw [hp] at hhandles
  apply h.attains hp (by simp [Point.stack, road])
  intro r k e _
  rw [hstack]
  exact h.proceeds hn hp (q := .outside false 0 todo) rfl rfl ⟨rfl, rfl, rfl, rfl⟩ rfl
    (by simp [Point.work]) (.refl m) (.refl _ _)
    (fun hstop => by rw [h.not_stopped] at hstop; cases hstop) h.steady
    ⟨trivial, hhandles, by simp [Point.stage]⟩

/-- The main thread has gone through its own sections. -/
theorem Running.begins_joins (h : Running own others p .first m)
    (hn : others.length < UInt64.size) (hp : p .first = .outside false 0 []) :
    m.Attains (Onward own others p m) := by
  have hstack : (Point.outside false 0 []).stack others.length .first =
      (Point.joining 0).stack others.length .first := by
    simp [Point.stack, road, yields, threadCode, lastCode]
  have hhandles := h.led.entered.handles
  rw [hp] at hhandles
  apply h.attains hp (by simp [Point.stack, road])
  intro r k e _
  rw [hstack]
  exact h.proceeds hn hp (q := .joining 0) rfl rfl ⟨rfl, rfl, rfl, rfl⟩ rfl
    (by simp [Point.work, workOf]) (.refl m) (.refl _ _)
    (fun hstop => by rw [h.not_stopped] at hstop; cases hstop) h.steady
    ⟨Nat.zero_le _, hhandles, by simp [Point.stage]⟩

/-- The main thread goes on with the next thread that it joins. -/
theorem Running.joined (h : Running own others p .first m) (hn : others.length < UInt64.size)
    (hc : c < others.length) (hp : p .first = x) (hx : x = .joining c ∨ x = .awaiting c)
    (hs : SameCrew m m') (hsched : m'.sched = m.sched)
    (hhandles : ∀ i, c + 1 ≤ i → i < others.length → spawned i ∈ m'.handles) :
    (m'.withThread .first ⟨(Point.joining (c + 1)).stack others.length .first, r, k, e⟩).Attains
      (Onward own others p m) := by
  apply h.proceeds (q := .joining (c + 1)) hn hp rfl rfl _ _ _ hs
  · rw [hsched]
    exact .refl _ _
  · rw [hsched, h.not_stopped]
    intro hstop
    cases hstop
  · rw [hsched]
    exact h.steady
  · exact ⟨hc, hhandles, by simp [Point.stage]⟩
  · rcases hx with rfl | rfl <;> exact ⟨rfl, rfl, rfl, rfl⟩
  · rcases hx with rfl | rfl <;> rfl
  · rcases hx with rfl | rfl <;> simp [Point.work, lastWork] <;> omega

/-- The main thread has not seen the end of the next thread that it joins, and suspends. -/
theorem Running.awaits (h : Running own others p .first m) (hn : others.length < UInt64.size)
    (hc : c < others.length) (hp : p .first = x) (hx : x = .joining c ∨ x = .awaiting c)
    (hs : SameCrew m m')
    (hsched : m'.sched = (m.sched.addJoiner (spawned c) .first).stop .first)
    (hhandles : ∀ i, c + 1 ≤ i → i < others.length → spawned i ∈ m'.handles) :
    (m'.withThread .first ⟨(Point.awaiting c).stack others.length .first, r, k, e⟩).Attains
      (Onward own others p m) := by
  have hadded : Sched.Mild (· ≠ .first) m.sched (m.sched.addJoiner (spawned c) .first) :=
    Sched.mild_addJoiner ..
  have hentered : (Point.awaiting c).stage.Entered others.length m' :=
    ⟨hc, hhandles, by simp [Point.stage]⟩
  have hcoherent := h.coherent.sameRun (Sched.sameRun_addJoiner (spawned c) .first)
  rcases hx with rfl | rfl
  · apply h.proceeds (q := .awaiting c) hn hp rfl rfl ⟨rfl, rfl, rfl, rfl⟩ rfl _ hs _
      (fun _ => rfl) _ hentered
    · simp [Point.work, lastWork]
      omega
    · rw [hsched]
      exact hadded.trans (Sched.mild_stop .first _)
    · rw [hsched]
      exact steady_stop h.held
  · exact h.lingers hn hp rfl rfl hs hadded (hcoherent.isRunning_of_held h.held)
      h.held (Sched.alertness_addJoiner _ _ · _) hsched hentered

/-- The main thread looks whether the next thread that it joins has finished. -/
theorem Running.looks (h : Running own others p .first m) (hn : others.length < UInt64.size)
    (hc : c < others.length) (hp : p .first = x) (hx : x = .joining c ∨ x = .awaiting c)
    (hs : SameCrew m m') (hsched : m'.sched = m.sched)
    (hhandles : ∀ i, c + 1 ≤ i → i < others.length → spawned i ∈ m'.handles) :
    (m'.withThread .first ⟨(Point.awaiting c).stack others.length .first, r, k, e⟩).Attains
      (Onward own others p m) := by
  have hheld : m'.sched.turn = .held .first := by rw [hsched, h.held]
  cases ho : m'.outcomes.get? (spawned c) with
  | some o =>
      apply Machine.attains_awaitThread hheld ho
      apply Machine.attains_report "join" hheld
      apply h.joined hn hc hp hx
      · exact { hs with }
      · exact hsched
      · exact hhandles
  | none =>
      apply Machine.attains_awaitThread_again hheld ho
      apply h.awaits hn hc hp hx
      · exact { hs with }
      · rw [← hsched]
        rfl
      · exact hhandles

theorem joins_drop {n : Nat} (hc : c < n) :
    (joins n).drop c = .join (spawned c) :: (joins n).drop (c + 1) := by
  rw [List.drop_eq_getElem_cons (by simpa [joins] using hc)]
  simp [joins]

/-- The main thread joins the next thread. -/
theorem Running.joins_next (h : Running own others p .first m) (hn : others.length < UInt64.size)
    (hc : c < others.length) (hp : p .first = .joining c) :
    m.Attains (Onward own others p m) := by
  have hhandles := h.led.entered.handles
  rw [hp] at hhandles
  apply h.attains hp (by simp [Point.stack])
  intro r k e _
  rw [Point.stack, joins_drop hc]
  apply Machine.attains_join h.held h.staged.host (hhandles c (Nat.le_refl c) hc)
  apply h.looks hn hc hp (.inl rfl)
  · exact ⟨⟨rfl, rfl, rfl, rfl, rfl, rfl, rfl⟩, rfl, rfl⟩
  · rfl
  · intro i hi hin
    have hne : spawned i ≠ spawned c := by
      intro he
      have hic := (spawned_inj (by omega) (by omega)).mp he
      omega
    exact (List.mem_erase_of_ne hne).mpr (hhandles i (by show c ≤ i; omega) hin)

/-- The main thread was woken while it waited for the next thread. -/
theorem Running.wakes_joining (h : Running own others p .first m) (hn : others.length < UInt64.size)
    (hp : p .first = .awaiting c) : m.Attains (Onward own others p m) := by
  have hhandles := h.led.entered.handles
  have hc := h.led.entered.leads
  rw [hp] at hhandles hc
  apply h.attains hp (by simp [Point.stack])
  intro r k e _
  exact h.looks hn hc hp (.inr rfl) (.refl m) rfl hhandles

end Balanced

end Baton
