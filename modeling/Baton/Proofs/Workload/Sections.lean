import Baton.Proofs.Workload.Stages

/-!
# Balanced workloads: through a section

What a running thread does between two points of its sections: it asks for a guard, waits for it
until it is granted, works under it and gives it up, and it yields inside and after a section. Each
piece ends with the thread closer to the end, or asleep again after a wakeup in vain.
-/

namespace Baton

namespace Balanced

open Function (update)
open Machine (SameThreads Served)

variable {own : List Section} {others : List (List Section)} {p : ThreadId → Point}
  {m m' : Machine} {me t : ThreadId} {x q : Point} {r : Reply} {k left : Nat} {e : ErrorText}
  {s : Section} {todo : List Section} {σ : Target}

/-! ## Moves of the running thread -/

/-- The threads are at their points and `me` runs. -/
structure Running (own : List Section) (others : List (List Section)) (p : ThreadId → Point)
    (me : ThreadId) (m : Machine) : Prop extends AtPoints own others p m where
  coherent : m.sched.Coherent
  held : m.sched.turn = .held me

/-- The thread may be looked at for itself. -/
theorem Running.attains (h : Running own others p me m) (hp : p me = x)
    (hstack : x.stack others.length me ≠ [])
    (hgo : ∀ r k e, (x.isTold = true → r = .null) →
      (m.withThread me ⟨x.stack others.length me, r, k, e⟩).Attains (Onward own others p m)) :
    m.Attains (Onward own others p m) := by
  subst hp
  exact h.toAtPoints.attains h.coherent h.held hstack hgo

theorem Running.mem_crew (h : Running own others p me m) : me ∈ crew others.length :=
  h.toAtPoints.mem_crew (h.isAlive_of_held h.coherent h.held)

theorem Running.not_stopped (h : Running own others p me m) :
    m.sched.isStopped me = false :=
  Sched.isStopped_eq_false_of_isRunning (h.coherent.isRunning_of_held h.held)

theorem Running.steady (h : Running own others p me m) : Steady m.sched.turn :=
  .inr ⟨me, .inl h.held⟩

/-- The thread comes to another point of its sections, where it may have suspended. -/
theorem Running.arrives (h : Running own others p me m) (hp : p me = x) (hx : x.isWorking = true)
    (hq : q.isWorking = true) (hs : SameThreads m m')
    (hmild : Sched.Mild (· ≠ me) m.sched m'.sched)
    (hstop : m'.sched.isStopped me = true → q.canStop = true) (hsteady : Steady m'.sched.turn)
    (hreply : q.isTold = true → r = .null) (hclaims : Claims (update p me q) m')
    (hbooks : Books others.length (own :: others).flatten (update p me q) m'.memory)
    (hless : q.work others.length me < x.work others.length me) :
    (m'.withThread me ⟨q.stack others.length me, r, k, e⟩).Attains (Onward own others p m) := by
  subst hp
  have hover : m.sched.turn ≠ .over := by simp [h.held]
  exact .here ((h.worked hx hq hs hmild hstop hreply hover hclaims hbooks).onward
    h.mem_crew hless hsteady)

/-- The thread comes to another point of its sections without suspending. -/
theorem Running.goes (h : Running own others p me m) (hp : p me = x) (hx : x.isWorking = true)
    (hq : q.isWorking = true) (hs : SameThreads m m')
    (hmild : Sched.Mild (fun _ => True) m.sched m'.sched) (hsteady : Steady m'.sched.turn)
    (hreply : q.isTold = true → r = .null) (hclaims : Claims (update p me q) m')
    (hbooks : Books others.length (own :: others).flatten (update p me q) m'.memory)
    (hless : q.work others.length me < x.work others.length me) :
    (m'.withThread me ⟨q.stack others.length me, r, k, e⟩).Attains (Onward own others p m) := by
  apply h.arrives hp hx hq hs (hmild.mono fun _ _ => trivial) _ hsteady hreply hclaims hbooks hless
  intro hstop
  have hstopped := hmild.stopped me trivial hstop
  rw [h.not_stopped] at hstopped
  cases hstopped

/-- The thread goes on and leaves the objects and the memory alone. -/
theorem Running.strolls (h : Running own others p me m) (hp : p me = x) (hx : x.isWorking = true)
    (hq : q.isWorking = true) (halike : x.Alike q) (htold : q.isTold = false)
    (hs : SameThreads m m') (hmutexes : m'.mutexes = m.mutexes) (hlocks : m'.locks = m.locks)
    (hmemory : m'.memory = m.memory) (hmild : Sched.Mild (fun _ => True) m.sched m'.sched)
    (hsteady : Steady m'.sched.turn) (hless : q.work others.length me < x.work others.length me) :
    (m'.withThread me ⟨q.stack others.length me, r, k, e⟩).Attains (Onward own others p m) := by
  subst hp
  have hreply : q.isTold = true → r = .null := by
    rw [htold]
    intro h
    cases h
  have hbooks := h.books.stay halike
  rw [← hmemory] at hbooks
  exact h.goes rfl hx hq hs hmild hsteady hreply (h.claims.stay hmutexes hlocks halike) hbooks hless

/-! ## Yields -/

/-- A thread comes back from a yield between sections. -/
theorem Running.returns_outside (h : Running own others p me m)
    (hp : p me = .outside true left todo) : m.Attains (Onward own others p m) := by
  apply h.attains hp (by simp [Point.stack, yielded])
  intro r k e _
  apply Machine.attains_answer h.held
  apply Machine.attains_report "yield" h.held
  refine h.strolls hp (q := .outside false left todo) rfl rfl ⟨rfl, rfl, rfl, rfl⟩ rfl
    { SameThreads.refl m with } rfl rfl rfl (.refl _ _) h.steady ?_
  simp [Point.work]

/-- A thread yields between sections. -/
theorem Running.yields_outside (h : Running own others p me m)
    (hp : p me = .outside false (left + 1) todo) : m.Attains (Onward own others p m) := by
  apply h.attains hp (by simp [Point.stack, road])
  intro r k e _
  apply Machine.attains_yield h.held h.staged.host
  refine h.strolls hp (q := .outside true left todo) rfl rfl ⟨rfl, rfl, rfl, rfl⟩ rfl
    { SameThreads.refl m with } rfl rfl rfl (Sched.mild_yieldNow _ _) (.inr ⟨me, .inr rfl⟩) ?_
  simp [Point.work]
  omega

theorem room_succ (n : Nat) (t : ThreadId) (left : Nat) (s : Section) (todo : List Section) :
    room n t (left + 1) s todo =
      .instr .yield :: (s.target.look.map Task.instr ++ room n t left s todo) := by
  simp [room, Target.rounds, List.replicate_succ]

/-- A thread yields in a section. -/
theorem Running.yields_inside (h : Running own others p me m)
    (hp : p me = .inside false (left + 1) s todo) : m.Attains (Onward own others p m) := by
  apply h.attains hp (by simp [Point.stack, room])
  intro r k e _
  rw [Point.stack, room_succ]
  apply Machine.attains_yield h.held h.staged.host
  refine h.strolls hp (q := .inside true left s todo) rfl rfl ⟨rfl, rfl, rfl, rfl⟩ rfl
    { SameThreads.refl m with } rfl rfl rfl (Sched.mild_yieldNow _ _) (.inr ⟨me, .inr rfl⟩) ?_
  simp [Point.work]
  omega

/-- While a thread reads counters nobody raises them. -/
theorem Claims.not_raising_of_read (h : Claims p m) (hp : (p me).holding? = some σ)
    (hread : σ.isExclusive = false) (t : ThreadId) : ¬ (p t).Raising σ.place := by
  rintro ⟨τ, hτ, hx, hplace⟩
  obtain ⟨-, rfl⟩ := h.alone (Point.holding?_of_within? hτ) hp hx hplace.symm
  rw [hx] at hread
  cases hread

/-- A thread comes back from a yield in a section. A reading section looks at its counters again,
which are still equal. -/
theorem Running.returns_inside (h : Running own others p me m)
    (hp : p me = .inside true left s todo) : m.Attains (Onward own others p m) := by
  apply h.attains hp (by simp [Point.stack, yielded])
  intro r k e _
  apply Machine.attains_answer h.held
  apply Machine.attains_report "yield" h.held
  have hgo : ∀ m' : Machine, SameThreads m m' → m'.mutexes = m.mutexes → m'.locks = m.locks →
      m'.memory = m.memory → m'.sched = m.sched →
      (m'.withThread me ⟨room others.length me left s todo, .null, k + 1, e⟩).Attains
        (Onward own others p m) := by
    intro m' hs hmutexes hlocks hmemory hsched
    refine h.strolls hp (q := .inside false left s todo) rfl rfl ⟨rfl, rfl, rfl, rfl⟩
      rfl hs hmutexes hlocks hmemory (hsched ▸ .refl _ _) (hsched ▸ h.steady) ?_
    simp [Point.work]
  rw [Target.look]
  split
  · exact hgo _ ⟨rfl, rfl, rfl, rfl, rfl, rfl⟩ rfl rfl rfl rfl
  · rename_i hread
    apply Machine.attains_update (by exact h.held) (by exact h.staged.host)
    apply hgo
    · exact ⟨rfl, rfl, rfl, rfl, rfl, rfl⟩
    · rfl
    · rfl
    · apply h.books.compare_eq_self
      exact h.claims.not_raising_of_read (by rw [hp]; rfl) (by simpa using hread)
    · rfl

/-! ## Guards that are asked for -/

theorem road_cons (n : Nat) (t : ThreadId) (s : Section) (todo : List Section) :
    road n t 0 (s :: todo) =
      .instr (.scope s.target.opening (s.body (number t))) :: road n t s.after todo := rfl

theorem Target.tasks_of (l : Nat) (side : RwSide) :
    (Target.of l side).opening.tasks = [.acquire (.inner (.table l)), side.request (.table l)] := by
  cases side <;> rfl

theorem Target.parked_of (l : Nat) (side : RwSide) (ts : List Task) :
    (Target.of l side).parked ++ ts = .leave (side.sleepers (.table l)) ::
      .acquire (.inner (.table l)) :: side.recheck (.table l) :: ts := by
  cases side <;> rfl

/-- A thread that does not work under a guard leaves the counters alone. -/
theorem Running.books_outside (h : Running own others p me m) (hout : (p me).within? = none)
    (hq : q.within? = none) (htodo : q.todo = (p me).todo) :
    Books others.length (own :: others).flatten (update p me q) m.memory :=
  h.books.move htodo fun _ =>
    iff_of_false (not_raising_of_within?_eq_none hq) (not_raising_of_within?_eq_none hout)

/-- A thread gets the guard that it has asked for. -/
theorem Running.granted (h : Running own others p me m) (hp : p me = x)
    (hx : x = .outside false 0 (s :: todo) ∨ x = .asking s todo) (hs : SameThreads m m')
    (hmemory : m'.memory = m.memory) (hsched : m'.sched = m.sched)
    (hclaims : Claims (update p me (.entering s todo)) m') :
    (m'.withThread me ⟨door others.length me s todo, .null, k, e⟩).Attains
      (Onward own others p m) := by
  have hbooks : Books others.length (own :: others).flatten (update p me (.entering s todo))
      m'.memory := by
    rw [hmemory]
    apply h.books_outside _ rfl
    · rcases hx with rfl | rfl <;> simp [hp, Point.todo]
    · rcases hx with rfl | rfl <;> simp [hp, Point.within?]
  apply h.goes hp (q := .entering s todo) _ rfl hs _ _ (fun _ => rfl) hclaims hbooks
  · rcases hx with rfl | rfl <;> simp [Point.work]
  · rcases hx with rfl | rfl <;> rfl
  · rw [hsched]
    exact .refl _ _
  · rw [hsched]
    exact h.steady

/-- A thread is queued for the guard that it has asked for, and suspends. -/
theorem Running.queued (h : Running own others p me m) (hp : p me = .outside false 0 (s :: todo))
    (hs : SameThreads m m') (hmemory : m'.memory = m.memory)
    (hmild : Sched.Mild (· ≠ me) m.sched m'.sched) (hsteady : Steady m'.sched.turn)
    (hreply : (Point.asking s todo).isTold = true → r = .null)
    (hclaims : Claims (update p me (.asking s todo)) m') :
    (m'.withThread me ⟨s.target.parked ++ door others.length me s todo, r, k, e⟩).Attains
      (Onward own others p m) := by
  have hbooks : Books others.length (own :: others).flatten (update p me (.asking s todo))
      m'.memory := by
    rw [hmemory]
    apply h.books_outside _ rfl
    · rw [hp]
      rfl
    · rw [hp]
      rfl
  apply h.arrives hp (q := .asking s todo) rfl rfl hs hmild (fun _ => rfl) hsteady hreply hclaims
    hbooks
  simp [Point.work]

/-- A thread that was woken in vain suspends again. -/
theorem Running.sleeps_again (h : Running own others p me m) (hp : p me = .asking s todo)
    (hs : SameThreads m m') (hmemory : m'.memory = m.memory)
    (hmutexes : ∀ x, m'.mutexes.get x = m.mutexes.get x)
    (hlocks : ∀ l, m'.locks.get l = m.locks.get l) (hsched : m'.sched = m.sched.stop me)
    (hreply : (Point.asking s todo).isTold = true → r = .null) :
    (m'.withThread me ⟨s.target.parked ++ door others.length me s todo, r, k, e⟩).Attains
      (Onward own others p m) := by
  have hself : update p me (.asking s todo) = p := by
    rw [← hp, Function.update_eq_self]
  have hworking : (p me).isWorking = true := by
    rw [hp]
    rfl
  have hclaims : Claims (update p me (.asking s todo)) m' := by
    apply h.claims.same hmutexes hlocks
    · rw [hp]
    · intro τ hτ
      cases hτ
  have hbooks : Books others.length (own :: others).flatten (update p me (.asking s todo))
      m'.memory := by
    rw [hself, hmemory]
    exact h.books
  have hat := h.worked (q := .asking s todo) (r := r) (k := k) (e := e) hworking rfl hs
    (hsched ▸ Sched.mild_stop me m.sched) (fun _ => rfl) hreply (by simp [h.held]) hclaims hbooks
  rw [hself] at hat
  apply Machine.Attains.here
  refine ⟨p, hat, ?_, distance_lt_of_alertness rfl ?_⟩
  · show Steady m'.sched.turn
    rw [hsched]
    exact steady_stop h.held
  · exact alertness_stop h.mem_crew (h.coherent.isRunning_of_held h.held) (fun _ => rfl) hsched

/-- A thread asks for the guard of a cell. -/
theorem Running.asks_cell (h : Running own others p me m) {i : Nat}
    (hp : p me = .outside false 0 (s :: todo)) (hi : s.target = .cell i) :
    (m.withThread me ⟨.acquire (.cell i) :: .answer .null :: door others.length me s todo,
      r, k, e⟩).Attains (Onward own others p m) := by
  have hnone : (p me).target? = none := by
    rw [hp]
    rfl
  by_cases hfree : (m.mutexes.get (.cell i)).owner = none
  · apply Machine.attains_acquire h.held hfree
    apply Machine.attains_answer (by exact h.held)
    apply h.granted hp (.inl rfl)
    · exact ⟨rfl, rfl, rfl, rfl, rfl, rfl⟩
    · rfl
    · rfl
    · exact h.claims.take_cell hnone hfree rfl rfl (congrArg some hi)
  · apply Machine.attains_acquire_queued h.held hfree (h.claims.owner_ne hnone)
    rw [show Task.awaitOwner (.cell i) :: .answer .null :: door others.length me s todo =
      s.target.parked ++ door others.length me s todo by rw [hi]; rfl]
    apply h.queued hp
    · exact ⟨rfl, rfl, rfl, rfl, rfl, rfl⟩
    · rfl
    · exact Sched.mild_stop me m.sched
    · exact steady_stop h.held
    · intro htold
      rw [Point.isTold, hi] at htold
      cases htold
    · exact h.claims.queue_cell hnone hfree rfl rfl (congrArg some hi) rfl

/-- A thread asks for one side of a table's lock. -/
theorem Running.asks_table (h : Running own others p me m) {l : Nat} {side : RwSide}
    (hp : p me = .outside false 0 (s :: todo)) (hi : s.target = .of l side) :
    (m.withThread me ⟨.acquire (.inner (.table l)) :: side.request (.table l) ::
      door others.length me s todo, r, k, e⟩).Attains (Onward own others p m) := by
  have hnone : (p me).target? = none := by
    rw [hp]
    rfl
  apply Machine.attains_request side h.held (h.claims.inner l) (h.claims.regular l)
    (h.claims.claim_eq_zero hnone)
  · intro m' hgranted hserved hsched
    apply h.granted hp (.inl rfl) hserved.toSameThreads hserved.memory hsched
    exact h.claims.request hnone hserved (congrArg some hi) fun _ => hgranted
  · intro m' notice hserved hsched
    rw [← Target.parked_of, ← hi]
    have hrested := hserved.onSched (Sched.stop me)
    have hstopped : (m'.onSched (Sched.stop me)).sched = (m.sched.note notice).stop me := by
      rw [← hsched]
      rfl
    apply h.queued hp hrested.toSameThreads hrested.memory
    · rw [hstopped]
      exact (Sched.mild_note notice m.sched).trans (Sched.mild_stop me _)
    · rw [hstopped]
      exact steady_stop (s := m.sched.note notice) h.held
    · exact fun _ => rfl
    · apply h.claims.request (q := .asking s todo) hnone hrested (congrArg some hi)
      intro hholding
      exact absurd rfl hholding

/-- A thread asks for the guard of its next section. -/
theorem Running.asks (h : Running own others p me m)
    (hp : p me = .outside false 0 (s :: todo)) : m.Attains (Onward own others p m) := by
  apply h.attains hp (by simp [Point.stack, road_cons])
  intro r k e _
  rw [Point.stack, road_cons]
  apply Machine.attains_instr h.held h.staged.host
  rw [show Instr.tasks .coop me r m.memory (.scope s.target.opening (s.body (number me))) ++
    road others.length me s.after todo =
      s.target.opening.tasks ++ door others.length me s todo from List.append_assoc ..]
  rcases s.target.cases with ⟨i, hi⟩ | ⟨l, side, hi⟩
  · rw [show s.target.opening.tasks = [.acquire (.cell i), .answer .null] by rw [hi]; rfl]
    exact h.asks_cell hp hi
  · rw [show s.target.opening.tasks = [.acquire (.inner (.table l)), side.request (.table l)] by
      rw [hi, Target.tasks_of]]
    exact h.asks_table hp hi

/-! ## Guards that were waited for -/

/-- A woken thread looks whether it owns the cell's mutex. -/
theorem Running.wakes_cell (h : Running own others p me m) {i : Nat}
    (hp : p me = .asking s todo) (hi : s.target = .cell i) :
    (m.withThread me ⟨.awaitOwner (.cell i) :: .answer .null :: door others.length me s todo,
      r, k, e⟩).Attains (Onward own others p m) := by
  by_cases howner : (m.mutexes.get (.cell i)).owner = some me
  · apply Machine.attains_awaitOwner h.held howner
    apply Machine.attains_answer h.held
    apply h.granted hp (.inr rfl) (.refl m) rfl rfl
    apply h.claims.same (fun _ => rfl) (fun _ => rfl) (by rw [hp]; rfl)
    intro τ hτ
    obtain rfl : s.target = τ := Option.some.inj hτ
    rw [hi, holds, if_pos howner]
    exact Nat.one_pos
  · apply Machine.attains_awaitOwner_again h.held howner
    rw [show Task.awaitOwner (.cell i) :: .answer .null :: door others.length me s todo =
      s.target.parked ++ door others.length me s todo by rw [hi]; rfl]
    apply h.sleeps_again hp
    · exact ⟨rfl, rfl, rfl, rfl, rfl, rfl⟩
    · rfl
    · exact fun _ => rfl
    · exact fun _ => rfl
    · rfl
    · intro htold
      rw [Point.isTold, hi] at htold
      cases htold

/-- A woken thread looks whether it was granted its side of the table's lock. -/
theorem Running.wakes_table (h : Running own others p me m) {l : Nat} {side : RwSide}
    (hp : p me = .asking s todo) (hi : s.target = .of l side) :
    (m.withThread me ⟨.leave (side.sleepers (.table l)) :: .acquire (.inner (.table l)) ::
      side.recheck (.table l) :: door others.length me s todo, .null, k, e⟩).Attains
        (Onward own others p m) := by
  have hone : (m.locks.get (.table l)).claim me side = 1 := by
    rw [← claim_of, h.claims.claim, hp, ← hi]
    exact if_pos rfl
  have hsame : ∀ m', Served (.table l) (m.locks.get (.table l)) m m' →
      ∀ k, m'.locks.get k = m.locks.get k := by
    intro m' hserved k
    rw [hserved.lock]
    split
    · rename_i hk
      rw [hk]
    · rfl
  apply Machine.attains_recheck side h.held (h.claims.inner l) (h.claims.regular l) hone
  · intro m' hnot hserved hsched
    apply h.granted hp (.inr rfl) hserved.toSameThreads hserved.memory hsched
    apply h.claims.same hserved.mutexes (hsame m' hserved) (by rw [hp]; rfl)
    intro τ hτ
    obtain rfl : s.target = τ := Option.some.inj hτ
    rw [RwState.claim, List.count_eq_zero.mpr hnot] at hone
    rw [hi, holds_of]
    omega
  · intro m' hserved hsched
    rw [← Target.parked_of, ← hi]
    have hrested := hserved.onSched (Sched.stop me)
    apply h.sleeps_again hp hrested.toSameThreads hrested.memory hrested.mutexes
      (hsame _ hrested) _ fun _ => rfl
    rw [← hsched]
    rfl

/-- A woken thread looks whether it was granted what it waits for. -/
theorem Running.wakes (h : Running own others p me m) (hp : p me = .asking s todo) :
    m.Attains (Onward own others p m) := by
  apply h.attains hp (by simp [Point.stack, door])
  intro r k e hr
  rcases s.target.cases with ⟨i, hi⟩ | ⟨l, side, hi⟩
  · rw [Point.stack, hi]
    exact h.wakes_cell hp hi
  · rw [Point.stack, hi, Target.parked_of, hr (by rw [Point.isTold, hi]; cases side <;> rfl)]
    exact h.wakes_table hp hi

/-! ## Guards that were obtained -/

theorem raising_inside {atRest : Bool} {pl : Place} (hx : s.target.isExclusive = true) :
    (Point.inside atRest left s todo).Raising pl ↔ pl = s.target.place := by
  constructor
  · rintro ⟨τ, hτ, -, rfl⟩
    obtain rfl : s.target = τ := Option.some.inj hτ
    rfl
  · rintro rfl
    exact ⟨s.target, rfl, hx, rfl⟩

theorem not_raising_inside {atRest : Bool} {pl : Place} (hx : s.target.isExclusive = false) :
    ¬ (Point.inside atRest left s todo).Raising pl := by
  rintro ⟨τ, hτ, hx', -⟩
  obtain rfl : s.target = τ := Option.some.inj hτ
  rw [hx] at hx'
  cases hx'

/-- Nobody else raises the counters of a thread that has them for itself. -/
theorem Claims.not_raising_of_exclusive (h : Claims p m) (hp : (p me).holding? = some σ)
    (hx : σ.isExclusive = true) (hne : t ≠ me) : ¬ (p t).Raising σ.place := by
  rintro ⟨τ, hτ, -, hplace⟩
  exact hne (h.alone hp (Point.holding?_of_within? hτ) hx hplace).1

/-- The books after the first piece of work in a section. -/
theorem Running.books_start (h : Running own others p me m) (hp : p me = .entering s todo) :
    Books others.length (own :: others).flatten (update p me (.inside false s.inside s todo))
      (s.target.start (number me) m.memory) := by
  have hholding : (p me).holding? = some s.target := by
    rw [hp]
    rfl
  rw [Target.start]
  cases hx : s.target.isExclusive with
  | true =>
      apply h.books.beginRaise
      · intro t
        by_cases ht : t = me
        · rw [ht, hp]
          exact not_raising_of_within?_eq_none rfl
        · exact h.claims.not_raising_of_exclusive hholding hx ht
      · rw [hp]
        rfl
      · exact fun _ => raising_inside hx
      · rw [hp]
        rfl
  | false =>
      rw [if_neg (by simp),
        h.books.compare_eq_self (h.claims.not_raising_of_read hholding hx)]
      apply h.books.move
      · rw [hp]
        rfl
      · intro pl
        rw [hp]
        exact iff_of_false (not_raising_inside hx) (not_raising_of_within?_eq_none rfl)

/-- A thread with the guard of a section begins the section. -/
theorem Running.enters (h : Running own others p me m) (hp : p me = .entering s todo) :
    m.Attains (Onward own others p m) := by
  apply h.attains hp (by simp [Point.stack, door])
  intro r k e hr
  apply Machine.attains_enter h.held (by rw [hr rfl]; rfl)
  rw [Section.body, List.cons_append, List.map_cons, List.append_assoc]
  apply Machine.attains_update (by exact h.held) (by exact h.staged.host)
  refine h.goes hp (q := .inside false s.inside s todo) rfl rfl ⟨rfl, rfl, rfl, rfl, rfl, rfl⟩
    (.refl _ _) h.steady (fun htold => by cases htold) ?_ (h.books_start hp) ?_
  · apply h.claims.same
    · exact fun _ => rfl
    · exact fun _ => rfl
    · rw [hp]
      rfl
    · intro τ hτ
      apply h.claims.holding
      rw [hp]
      exact hτ
  · simp [Point.work, workOf, Section.work]
    omega

/-- The books after the last piece of work in a section. -/
theorem Running.books_finish (h : Running own others p me m)
    (hp : p me = .inside false 0 s todo) :
    Books others.length (own :: others).flatten (update p me (.outside false s.after todo))
      (s.target.finish (number me) m.memory) := by
  have hholding : (p me).holding? = some s.target := by
    rw [hp]
    rfl
  have htodo : (p me).todo = s :: (Point.outside false s.after todo).todo := by
    rw [hp]
    rfl
  rw [Target.finish]
  cases hx : s.target.isExclusive with
  | true =>
      apply h.books.endRaise h.mem_crew _ _ htodo hx rfl rfl
      · rw [hp]
        exact fun _ => raising_inside hx
      · exact fun t ht => h.claims.not_raising_of_exclusive hholding hx ht
  | false =>
      apply h.books.countRead h.mem_crew _ htodo hx rfl
      rw [hp]
      exact fun _ => not_raising_inside hx

/-- A thread ends a section and gives its guard up. -/
theorem Running.leaves (h : Running own others p me m) (hp : p me = .inside false 0 s todo) :
    m.Attains (Onward own others p m) := by
  apply h.attains hp (by simp [Point.stack, room])
  intro r k e _
  apply Machine.attains_update h.held h.staged.host
  have hgo : ∀ (m' : Machine) (r : Reply), SameThreads m m' →
      m'.memory = s.target.finish (number me) m.memory →
      Sched.Mild (fun _ => True) m.sched m'.sched → m'.sched.turn = .held me →
      Claims (update p me (.outside false s.after todo)) m' →
      (m'.withThread me ⟨.answer .null :: .report "end" :: road others.length me s.after todo,
        r, k, e⟩).Attains (Onward own others p m) := by
    intro m' r hs hmemory hmild hheld hclaims
    apply Machine.attains_answer hheld
    apply Machine.attains_report "end" hheld
    refine h.goes hp (q := .outside false s.after todo) rfl rfl { hs with } hmild
      (.inr ⟨me, .inl hheld⟩) (fun htold => by cases htold) { hclaims with } ?_ ?_
    · show Books _ _ _ m'.memory
      rw [hmemory]
      exact h.books_finish hp
    · simp [Point.work]
  have hholding : (p me).holding? = some s.target := by
    rw [hp]
    rfl
  have hclaims : Claims p { m with memory := s.target.finish (number me) m.memory } :=
    { h.claims with }
  rcases s.target.cases with ⟨i, hi⟩ | ⟨l, side, hi⟩
  · rw [hi] at hholding
    have howner := hclaims.owner_of_holding hholding
    rw [show s.target.opening.guard = .cell i by rw [hi]; rfl]
    apply Machine.attains_drop_cell (by exact h.held) howner
    intro m' hhanded hmild hheld
    apply hgo m' _ { hhanded.toSameThreads with } hhanded.memory hmild hheld
    exact hclaims.release_cell hholding hhanded.mutexes hhanded.locks rfl
  · rw [hi] at hholding
    have hpos := hclaims.holding me _ hholding
    rw [holds_of] at hpos
    rw [show s.target.opening.guard = side.guard (.table l) by rw [hi]; cases side <;> rfl]
    apply Machine.attains_drop_lock side (by exact h.held) (hclaims.inner l) (hclaims.regular l)
      hpos
    intro m' g lock hout hserved hmild hheld
    apply hgo m' _ { hserved.toSameThreads with } hserved.memory hmild hheld
    exact hclaims.release hholding hout hserved rfl

/-- A thread goes on through its sections as long as there are any left. -/
theorem Running.works (h : Running own others p me m) (hworking : (p me).isWorking = true)
    (hmore : p me ≠ .outside false 0 []) : m.Attains (Onward own others p m) := by
  cases hp : p me with
  | outside atRest left todo =>
      cases atRest with
      | true => exact h.returns_outside hp
      | false =>
          cases left with
          | succ left => exact h.yields_outside hp
          | zero =>
              cases todo with
              | nil => exact absurd hp hmore
              | cons s todo => exact h.asks hp
  | asking s todo => exact h.wakes hp
  | entering s todo => exact h.enters hp
  | inside atRest left s todo =>
      cases atRest with
      | true => exact h.returns_inside hp
      | false =>
          cases left with
          | succ left => exact h.yields_inside hp
          | zero => exact h.leaves hp
  | _ =>
      rw [hp] at hworking
      cases hworking

end Balanced

end Baton
