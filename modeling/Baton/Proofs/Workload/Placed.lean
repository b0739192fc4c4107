import Baton.Proofs.Program.Lifetime

/-!
# Workloads: threads at points of their code

A workload is proved with points, which tell of each thread where in its code it is. `Placed` says
that the stacks and the scheduler are as the points of all threads tell, whatever the points of the
workload are: a function gives the stack of a thread at a point, and three tests tell whether it is
live there, whether it may be suspended, and whether the last thing that it was told is that it gets
a guard. A thread that goes on, starts another thread or ends changes only its own point, and the
one of the thread that it starts.
-/

namespace Baton

namespace Machine

open Function (update)

variable {α : Type} {stack : ThreadId → α → List Task} {alive canStop told : α → Bool}
  {code : List (List Instr)} {p : ThreadId → α} {m m' : Machine} {me : ThreadId} {q x : α}
  {th : Thread} {r : Reply} {k : Nat} {e : ErrorText}

/-- The threads are live, stopped and about to do what their points say. -/
structure Placed (stack : ThreadId → α → List Task) (alive canStop told : α → Bool)
    (code : List (List Instr)) (p : ThreadId → α) (m : Machine) : Prop where
  host : m.host = .coop
  code : m.code = code
  main : m.sched.main = .first
  waiters : m.sched.waiters = []
  thread : ∀ t, alive (p t) = true → ∃ r k e,
    m.threads.get t = ⟨stack t (p t), r, k, e⟩ ∧ (told (p t) = true → r = .null)
  live : ∀ t, m.sched.isLive t = alive (p t)
  rested : ∀ t, m.sched.isStopped t = true → canStop (p t) = true

/-- At the start the main thread is about to carry out its code, and nobody else is live. -/
theorem placed_machine {w : Program} (hhost : w.host = .coop)
    (halive : ∀ t, alive (p t) = decide (t = .first))
    (hstack : (w.code.headD []).map Task.instr ++ [.exit] = stack .first (p .first)) :
    w.machine.Placed stack alive canStop told w.code p where
  host := hhost
  code := rfl
  main := rfl
  waiters := rfl
  thread t ht := by
    rw [halive, decide_eq_true_eq] at ht
    subst ht
    refine ⟨.null, 0, .fresh, ?_, fun _ => rfl⟩
    show (Store.set _ _ _ : Store ThreadId Thread).get _ = _
    rw [Store.get_set, ← hstack]
    exact if_pos rfl
  live t := by
    rw [halive, Sched.isLive_eq]
    show ((Sched.start _).standing t).isSome = _
    rw [Sched.standing_start]
    split <;> simp [*]
  rested t ht := by
    rw [Sched.isStopped_eq] at ht
    have ht : ((Sched.start w.idlePoll).standing t).any _ = true := ht
    rw [Sched.standing_start] at ht
    split at ht <;> simp at ht

namespace Placed

/-- The search for the next thread leaves all threads at their points. -/
theorem withSched {s : Sched} (h : Placed stack alive canStop told code p m)
    (hmild : Sched.Mild (fun _ => True) m.sched s) :
    Placed stack alive canStop told code p { m with sched := s } where
  host := h.host
  code := h.code
  main := hmild.main.trans h.main
  waiters := hmild.waiters.trans h.waiters
  thread := h.thread
  live t := (hmild.isLive t).trans (h.live t)
  rested t ht := h.rested t (hmild.stopped t trivial ht)

/-- The part of a thread's own that its point does not tell may be left open. -/
theorem of_withThread
    (h : Placed stack alive canStop told code p (m.withThread me (m.threads.get me))) :
    Placed stack alive canStop told code p m where
  host := h.host
  code := h.code
  main := h.main
  waiters := h.waiters
  thread t ht := by
    have hthread := h.thread t ht
    rw [get_withThread] at hthread
    split at hthread
    · rename_i hme
      rwa [hme] at hthread ⊢
    · exact hthread
  live := h.live
  rested := h.rested

/-- One thread that lives comes to another point at which it lives. -/
theorem move (h : Placed stack alive canStop told code p m) (halive : alive (p me) = true)
    (hq : alive q = true) (hhost : m'.host = m.host) (hcode : m'.code = m.code)
    (hthreads : ∀ t, t ≠ me → m'.threads.get t = m.threads.get t)
    (hmild : Sched.Mild (· ≠ me) m.sched m'.sched)
    (hstop : m'.sched.isStopped me = true → canStop q = true)
    (hreply : told q = true → r = .null) :
    Placed stack alive canStop told code (update p me q)
      (m'.withThread me ⟨stack me q, r, k, e⟩) where
  host := hhost.trans h.host
  code := hcode.trans h.code
  main := hmild.main.trans h.main
  waiters := hmild.waiters.trans h.waiters
  thread t ht := by
    rw [get_withThread]
    by_cases hme : t = me
    · subst hme
      rw [Function.update_self, if_pos rfl]
      exact ⟨r, k, e, rfl, hreply⟩
    · rw [Function.update_of_ne hme] at ht ⊢
      rw [if_neg hme, hthreads t hme]
      exact h.thread t ht
  live t := by
    refine (hmild.isLive t).trans ?_
    by_cases hme : t = me
    · rw [hme, Function.update_self, h.live, halive, hq]
    · rw [Function.update_of_ne hme]
      exact h.live t
  rested t ht := by
    by_cases hme : t = me
    · subst hme
      rw [Function.update_self]
      exact hstop ht
    · rw [Function.update_of_ne hme]
      exact h.rested t (hmild.stopped t hme ht)

/-- One thread starts another, which begins at the point `x`. -/
theorem spawn {index : Nat} (h : Placed stack alive canStop told code p m)
    (hs : Started me index m m') (hne : m.sched.ids.next ≠ me) (halive : alive (p me) = true)
    (hrest : canStop (p me) = false) (hq : alive q = true) (hth : th.stack = stack me q)
    (hreply : told q = true → th.reply = .null) (hx : alive x = true)
    (hnew : m.newThread index = ⟨stack m.sched.ids.next x, .null, 0, .fresh⟩) :
    Placed stack alive canStop told code (update (update p me q) m.sched.ids.next x)
      (m'.withThread me th) where
  host := hs.host.trans h.host
  code := hs.code.trans h.code
  main := by
    show m'.sched.main = _
    rw [hs.sched]
    exact h.main
  waiters := by
    show m'.sched.waiters = _
    rw [hs.sched]
    exact h.waiters
  thread t ht := by
    rw [get_withThread]
    by_cases hme : t = me
    · subst hme
      rw [if_pos rfl, Function.update_of_ne hne.symm, Function.update_self, ← hth]
      exact ⟨th.reply, th.produced, th.errorText, rfl, hreply⟩
    · rw [if_neg hme, hs.threads t hme]
      by_cases hnext : t = m.sched.ids.next
      · rw [if_pos hnext, hnext, Function.update_self, hnew]
        exact ⟨.null, 0, .fresh, rfl, fun _ => rfl⟩
      · rw [if_neg hnext]
        rw [Function.update_of_ne hnext, Function.update_of_ne hme] at ht ⊢
        exact h.thread t ht
  live t := by
    show m'.sched.isLive t = _
    rw [hs.sched, (Sched.restands_spawn m.sched).isLive]
    by_cases hnext : t = m.sched.ids.next
    · rw [if_pos hnext, hnext, Function.update_self, hx]
      rfl
    · rw [if_neg hnext, Function.update_of_ne hnext, h.live]
      by_cases hme : t = me
      · rw [hme, Function.update_self, halive, hq]
      · rw [Function.update_of_ne hme]
  rested t ht := by
    have ht : m'.sched.isStopped t = true := ht
    rw [hs.sched, (Sched.restands_spawn m.sched).isStopped] at ht
    by_cases hnext : t = m.sched.ids.next
    · rw [if_pos hnext] at ht
      cases ht
    · rw [if_neg hnext] at ht
      have hrested := h.rested t ht
      have hme : t ≠ me := by
        rintro rfl
        rw [hrest] at hrested
        cases hrested
      rwa [Function.update_of_ne hnext, Function.update_of_ne hme]

/-- One thread leaves the scheduler. -/
theorem ends (h : Placed stack alive canStop told code p m) (hq : alive q = false)
    (hhost : m'.host = m.host) (hcode : m'.code = m.code) (hthreads : m'.threads = m.threads)
    (hmain : m'.sched.main = m.sched.main) (hwaiters : m'.sched.waiters = m.sched.waiters)
    (hlive : ∀ t, m'.sched.isLive t = (m.sched.isLive t && decide (t ≠ me)))
    (hstopped : ∀ t, m'.sched.isStopped t = true → m.sched.isStopped t = true) :
    Placed stack alive canStop told code (update p me q) (m'.withThread me th) where
  host := hhost.trans h.host
  code := hcode.trans h.code
  main := hmain.trans h.main
  waiters := hwaiters.trans h.waiters
  thread t ht := by
    have hne : t ≠ me := by
      rintro rfl
      rw [Function.update_self, hq] at ht
      cases ht
    rw [Function.update_of_ne hne] at ht ⊢
    rw [get_withThread, if_neg hne, hthreads]
    exact h.thread t ht
  live t := by
    show m'.sched.isLive t = _
    rw [hlive, h.live]
    by_cases hne : t = me
    · rw [hne, Function.update_self, hq]
      simp
    · rw [Function.update_of_ne hne]
      simp [hne]
  rested t ht := by
    have hne : t ≠ me := by
      rintro rfl
      have hgone := (hlive t).symm.trans (Sched.isLive_of_isStopped ht)
      simp at hgone
    rw [Function.update_of_ne hne]
    exact h.rested t (hstopped t ht)

end Placed

end Machine

end Baton
