import Baton.Proofs.Program.Handover
import Baton.Proofs.Program.Holding

/-!
# Machine: guards are released

A thread whose code takes mutexes and locks only through blocks gives everything back, however it
ends. Along a run its guards nest: each is released as the innermost one. No release fails, since
the thread has the stake that it gives up. When the code has come to its end no guard is open, and
the thread has no stake left in any mutex or lock.

This is about one thread: the code of the others is arbitrary, and so are the wakeups from outside.
-/

namespace Baton

/-- The code that a thread starts with. -/
def GuardEvent.code? : GuardEvent → Option (List Instr)
  | began code => some code
  | _ => none

/-- The code that a thread has started with: the main thread runs from the start, and all others are
spawned. -/
def Program.codeOf (p : Program) (t : ThreadId) (τ : List GuardEvent) : List (List Instr) :=
  (if t = .first then [p.code.headD []] else []) ++ τ.filterMap GuardEvent.code?

namespace Machine

variable {p : Program} {τ : List GuardEvent} {m m' : Machine} {me t : ThreadId} {x : Task}
  {ts : List Task} {g : Guard} {gs : List Guard}

/-- The start of `t` by another thread. -/
def beginning (t : ThreadId) (m : Machine) : Task → List GuardEvent
  | .spawn code => if m.sched.ids.next = t then [.began (m.code.getD code [])] else []
  | _ => []

/-- What concerns the guards of `t` when `me` carries out a task. -/
def guardNotes (t me : ThreadId) (m : Machine) (x : Task) : List GuardEvent :=
  m.beginning t x ++ if me = t then m.guardEvents me x else []

theorem mem_guardEvents_of_guardNotes
    (hg : .obtained g ∈ guardNotes t t m x ∨ .released g ∈ guardNotes t t m x) :
    .obtained g ∈ m.guardEvents t x ∨ .released g ∈ m.guardEvents t x := by
  have hbegins : ∀ e ∈ m.beginning t x, ∃ code, e = .began code := by
    intro e he
    unfold beginning at he
    split at he
    · split at he
      · exact ⟨_, List.mem_singleton.mp he⟩
      · cases he
    · cases he
  rw [guardNotes, if_pos rfl, List.mem_append, List.mem_append] at hg
  refine hg.imp (·.resolve_left fun he => ?_) (·.resolve_left fun he => ?_)
  all_goals
    obtain ⟨code, he⟩ := hbegins _ he
    cases he

theorem nesting_beginning (gs : List Guard) (t : ThreadId) (m : Machine) (x : Task) :
    nesting gs (m.beginning t x) = some gs := by
  unfold beginning
  split
  · split <;> rfl
  · rfl

/-! ## Starts of threads -/

theorem started_mem_happeningsOf (hmem : .started t ∈ m.happeningsOf me x) :
    (∃ code, x = .spawn code) ∧ t = m.sched.ids.next := by
  cases x with
  | spawn code =>
      have hmem : .started t ∈ [Happening.started m.sched.ids.next] := hmem
      exact ⟨⟨code, rfl⟩, by simpa using hmem⟩
  | exit | abort =>
      simp only [happeningsOf, endings, List.mem_cons, reduceCtorEq, false_or] at hmem
      split at hmem <;> simp at hmem
  | drain =>
      simp only [happeningsOf] at hmem
      split at hmem <;> simp at hmem
  | awaitThread id =>
      obtain ⟨o, -, he⟩ := mem_joining hmem
      cases he
  | joinOutside id =>
      simp only [happeningsOf] at hmem
      split at hmem
      · obtain ⟨o, -, he⟩ := mem_joining hmem
        cases he
      · simp at hmem
  | _ => simp [happeningsOf] at hmem

/-- A thread that is live from now on is started in this step. -/
theorem Reaches.started_of_isLive (h : Reaches p.machine m)
    (hids : m'.sched.ids.handed ≤ UInt64.size) (hstep : m.step = some m')
    (hdead : m.sched.isLive t = false) (hlive : m'.sched.isLive t = true) :
    .started t ∈ m.happenings := by
  obtain ⟨τ, hτ⟩ := h.exists_chronicle
  have hhanded := Nat.le_trans (handed_le_of_step hstep) hids
  obtain ⟨hstarted, hleft⟩ := ((hτ.step hstep).isLive_iff hids t).mp hlive
  refine (List.mem_append.mp hstarted).resolve_left fun hwas => ?_
  have hstill := (hτ.isLive_iff hhanded t).mpr ⟨hwas, fun hl => hleft (List.mem_append_left _ hl)⟩
  exact Bool.false_ne_true (hdead.symm.trans hstill)

/-- The search for the next thread starts none. -/
theorem Reaches.isLive_of_search {s : Sched} (h : Reaches p.machine m)
    (hids : m.sched.ids.handed ≤ UInt64.size) (hturn : ∀ t, m.sched.turn ≠ .held t)
    (hs : m.sched.search m.system = some s) (t : ThreadId) : s.isLive t = m.sched.isLive t := by
  cases hwas : m.sched.isLive t with
  | true => exact (Sched.spares_search (b := fun _ => True) hs).live t hwas
  | false =>
      by_contra hlive
      have hids' : s.ids.handed ≤ UInt64.size := (Sched.ids_search hs).symm ▸ hids
      have hmem := h.started_of_isLive (t := t) hids' (step_of_search hturn hs) hwas
        (by simpa using hlive)
      rw [happenings_of_free hturn] at hmem
      rcases mem_search_happenings hmem with ⟨id, he⟩ | ⟨id, he⟩ <;> cases he

/-! ## Runs -/

/-- A thread that runs scoped code holds its guards while it is live, and nothing when it is not.
When the main thread's code has ended, it only waits for the others. -/
structure Guarded (t : ThreadId) (τ : List GuardEvent) (m : Machine) : Prop where
  live : m.sched.isLive t = true → ∃ gs, nesting [] τ = some gs ∧ Holding t gs m
  dead : m.sched.isLive t = false → nesting [] τ = some [] ∧ m.Owes t []
  main : t = m.sched.main → m.mainOutcome ≠ none → m.sched.isLive t = true →
    m.stackOf t = [.drain] ∨ m.stackOf t = [.suspend, .drain]

theorem Guarded.onSched {s : Sched} (h : Guarded t τ m) (hlive : s.isLive t = m.sched.isLive t)
    (hmain : s.main = m.sched.main) : Guarded t τ { m with sched := s } where
  live ht := h.live (hlive.symm.trans ht)
  dead ht := h.dead (hlive.symm.trans ht)
  main ht ho hl := h.main (ht.trans hmain) ho (hlive.symm.trans hl)

/-- After the end of its code the main thread waits for the others, and leaves when it is alone. -/
theorem drains_perform {r : Reply} {ks : List Stake} (hdue : Due (x :: ts) r ks gs)
    (hts : m.stackOf me = ts) (hmain : me = m.sched.main)
    (hwas : m.mainOutcome ≠ none → x :: ts = [.drain] ∨ x :: ts = [.suspend, .drain])
    (ho : (m.perform me x).mainOutcome ≠ none) (hlive : (m.perform me x).sched.isLive me = true) :
    (m.perform me x).stackOf me = [.drain] ∨ (m.perform me x).stackOf me = [.suspend, .drain] := by
  cases hend : x.isEnd with
  | true =>
      left
      rw [stackOf_end me m hend, if_pos hmain, hts, (hdue.eq_nil (.inl hend)).1]
  | false =>
      rw [(outcomes_perform me m hend).2] at ho
      rcases hwas ho with he | he <;> obtain ⟨rfl, rfl⟩ := List.cons.inj he
      · right
        rw [show m.perform me .drain = m.drain me from rfl] at hlive ⊢
        rw [stackOf_drain, hts]
        split
        · rfl
        · rename_i hlast
          have hgone : (m.sched.conclude me).isLive me = false :=
            (Sched.isLive_retire me me .over m.sched).trans (by simp)
          rw [drain, if_neg hlast] at hlive
          exact absurd (hgone.symm.trans hlive) Bool.false_ne_true
      · exact .inl hts

/-- A task of the thread itself. -/
theorem Guarded.perform_own (h : Guarded t τ m) (hr : Reaches p.machine m)
    (hids : m.sched.ids.handed ≤ UInt64.size) (hturn : m.sched.turn = .held t)
    (hstack : m.stackOf t = x :: ts)
    (hids' : ((m.setStack t ts).perform t x).sched.ids.handed ≤ UInt64.size) :
    Guarded t (τ ++ guardNotes t t (m.setStack t ts) x) ((m.setStack t ts).perform t x) := by
  have hs := hr.sound hids
  have hts : (m.setStack t ts).stackOf t = ts := stackOf_onThread ..
  have hlive : m.sched.isLive t = true :=
    Sched.isLive_of_isRunning (hs.coherent.isRunning_of_held hturn)
  have hne : ∀ code, x = .spawn code → t ≠ m.sched.ids.next := by
    rintro code rfl
    exact hs.ne_next code hturn hids'
  obtain ⟨gs, hnest, hheld⟩ := h.live hlive
  obtain ⟨gs', hnest', hheld'⟩ := nests_perform (hr.mutexQueues hids) (hr.lockQueues hids) hs hstack
    hne hheld
  have hnotes : nesting [] (τ ++ guardNotes t t (m.setStack t ts) x) = some gs' := by
    rw [nesting_append hnest, guardNotes, nesting_append (nesting_beginning ..), if_pos rfl, hnest']
  obtain ⟨ks, hdue, -⟩ := hheld
  rw [hstack] at hdue
  refine ⟨fun _ => ⟨gs', hnotes, hheld'⟩, fun hdead => ?_, fun hmain ho hstill => ?_⟩
  · obtain ⟨hkind, hsame⟩ := leaves_of_dead (m := m.setStack t ts) hlive hdead
    obtain ⟨ks', hdue', howes'⟩ := hheld'
    rw [hsame, hts, (hdue.eq_nil hkind).1] at hdue'
    obtain ⟨rfl, rfl⟩ := hdue'
    exact ⟨hnotes, howes'⟩
  · have hsame := (hs.spares hturn hstack hids').main
    exact drains_perform hdue hts (hmain.trans hsame)
      (fun ho => hstack ▸ h.main (hmain.trans hsame) ho hlive) ho hstill

theorem mainOutcome_other (hne : me ≠ m.sched.main) :
    (m.perform me x).mainOutcome = m.mainOutcome := by
  cases hend : x.isEnd with
  | false => exact (outcomes_perform me m hend).2
  | true =>
      obtain ⟨n, o, -, hn, hperform⟩ := perform_end me m hend
      rw [hperform]
      rcases hn with rfl | rfl
      · rw [finish_of_ne hne]
        rfl
      · rw [finish_of_ne (m := m.note _) hne]
        rfl

/-- A new thread starts with its code and no reply. -/
theorem thread_spawned (code : Nat) (hne : me ≠ m.sched.ids.next) :
    (m.spawn me code).threads.get m.sched.ids.next =
      ⟨(m.code.getD code []).map Task.instr ++ [.exit], .null, 0, .fresh⟩ := by
  show (Store.update _ me _).get m.sched.ids.next = _
  rw [Store.get_update, if_neg (Ne.symm hne)]
  exact (Store.get_set ..).trans (if_pos rfl)

/-- A thread that starts with scoped code. -/
theorem holding_spawn {code : Nat} (hcode : Instr.areScoped (m.code.getD code []) = true)
    (howes : m.Owes m.sched.ids.next []) (hne : me ≠ m.sched.ids.next) :
    Holding m.sched.ids.next [] (m.spawn me code) := by
  refine ⟨[], ?_, howes.congr rfl rfl⟩
  rw [stackOf, replyOf, thread_spawned code hne]
  exact (rest_code hcode).due _

/-- A task of another thread, which may start this one. -/
theorem Guarded.perform_other (h : Guarded t τ m) (hr : Reaches p.machine m)
    (hids : m.sched.ids.handed ≤ UInt64.size) (hturn : m.sched.turn = .held me)
    (hstack : m.stackOf me = x :: ts)
    (hids' : ((m.setStack me ts).perform me x).sched.ids.handed ≤ UInt64.size) (hne : t ≠ me)
    (hscoped : ∀ code, .began code ∈ (m.setStack me ts).beginning t x →
      Instr.areScoped code = true) :
    Guarded t (τ ++ guardNotes t me (m.setStack me ts) x) ((m.setStack me ts).perform me x) := by
  have hs := hr.sound hids
  have hspares := hs.spares hturn hstack hids'
  have hnotes : guardNotes t me (m.setStack me ts) x = (m.setStack me ts).beginning t x := by
    rw [guardNotes, if_neg (Ne.symm hne), List.append_nil]
  have hnest : ∀ gs, nesting [] τ = some gs →
      nesting [] (τ ++ guardNotes t me (m.setStack me ts) x) = some gs := fun gs hgs => by
    rw [hnotes, nesting_append hgs, nesting_beginning]
  have howes : ∀ ks, m.Owes t ks → ((m.setStack me ts).perform me x).Owes t ks := fun ks hks k =>
    (stake_other (hr.lockQueues hids) hs hstack hne k).trans (hks k)
  cases hwas : m.sched.isLive t with
  | true =>
      have hstill := hspares.live t hne hwas
      obtain ⟨gs, hgs, ks, hdue, hks⟩ := h.live hwas
      have hown := hspares.own t hne hwas
      refine ⟨fun _ => ⟨gs, hnest gs hgs, ks, ?_, howes ks hks⟩,
        fun hdead => absurd (hdead.symm.trans hstill) Bool.false_ne_true, fun hmain ho _ => ?_⟩
      · rwa [stackOf, replyOf, hown]
      · have hmain := hmain.trans hspares.main
        rw [mainOutcome_other (m := m.setStack me ts) fun he => hne (hmain.trans he.symm)] at ho
        rw [stackOf, hown]
        exact h.main hmain ho hwas
  | false =>
      obtain ⟨hgs, hks⟩ := h.dead hwas
      refine ⟨fun hlive => ⟨[], hnest [] hgs, ?_⟩, fun _ => ⟨hnest [] hgs, howes [] hks⟩,
        fun hmain _ hlive => ?_⟩
      all_goals
        have hstarted := hr.started_of_isLive hids' (step_of_held hturn hstack) hwas hlive
        rw [happenings_of_held hturn hstack] at hstarted
        obtain ⟨⟨code, rfl⟩, hnext⟩ := started_mem_happeningsOf hstarted
      · obtain rfl : t = m.sched.ids.next := hnext
        refine holding_spawn (m := m.setStack me ts) (hscoped _ ?_) (hks.congr rfl rfl)
          (Ne.symm hne)
        have hbegins : (m.setStack me ts).beginning m.sched.ids.next (.spawn code) =
            [.began (m.code.getD code [])] := if_pos rfl
        rw [hbegins]
        exact List.mem_singleton_self _
      · have hissued := hs.main_issued
        rw [← hspares.main, ← hmain, hnext] at hissued
        exact absurd hissued (IdAllocator.not_issued_next hids')

theorem guarded_machine (p : Program) (t : ThreadId)
    (hscoped : ∀ code ∈ p.codeOf t [], Instr.areScoped code = true) : Guarded t [] p.machine := by
  have howes : p.machine.Owes t [] := fun k => by
    cases k with
    | mutex name => rfl
    | hold side l => cases side <;> rfl
  refine ⟨fun hlive => ⟨[], rfl, [], ?_, howes⟩, fun _ => ⟨rfl, howes⟩, fun _ ho => absurd rfl ho⟩
  have hstarted :=
    ((Chronicle.start (p := p)).isLive_iff (show 1 ≤ UInt64.size by decide) t).mp hlive
  obtain rfl : t = .first := by simpa using hstarted.1
  have hthread : p.machine.threads.get .first =
      ⟨(p.code.headD []).map Task.instr ++ [.exit], .null, 0, .fresh⟩ :=
    (Store.get_set ..).trans (if_pos rfl)
  rw [stackOf, replyOf, hthread]
  exact (rest_code (hscoped _ (by simp [Program.codeOf]))).due _

theorem codeOf_append (p : Program) (t : ThreadId) (τ σ : List GuardEvent) :
    p.codeOf t (τ ++ σ) = p.codeOf t τ ++ σ.filterMap GuardEvent.code? := by
  rw [Program.codeOf, Program.codeOf, List.filterMap_append, List.append_assoc]

theorem Observed.guarded (h : Observed (ofTask (guardNotes t)) p τ m)
    (hids : m.sched.ids.handed ≤ UInt64.size) :
    (∀ code ∈ p.codeOf t τ, Instr.areScoped code = true) → Guarded t τ m := by
  refine h.keeps (P := fun τ m =>
    (∀ code ∈ p.codeOf t τ, Instr.areScoped code = true) → Guarded t τ m) hids
    (guarded_machine p t) ?_ ?_
    (fun _ m s hm hwaits hquiet hscoped =>
      (hm hscoped).onSched (hquiet.isLive t) hwaits.main)
    fun _ _ _ hm hscoped => { hm hscoped with }
  · intro τ m me x ts hm hr hh hturn hstack hids' hscoped
    rw [ofTask_of_held hturn hstack] at hscoped ⊢
    rw [codeOf_append] at hscoped
    have hwas := hm fun code hcode => hscoped code (List.mem_append_left _ hcode)
    by_cases hne : t = me
    · subst hne
      exact hwas.perform_own hr hh hturn hstack hids'
    · refine hwas.perform_other hr hh hturn hstack hids' hne fun code hcode => ?_
      refine hscoped code (List.mem_append_right _ (List.mem_filterMap.mpr ⟨.began code, ?_, rfl⟩))
      exact List.mem_append_left _ hcode
  · intro τ m s hm hr hh hturn hs hscoped
    rw [ofTask_of_free hturn, List.append_nil] at hscoped ⊢
    exact (hm hscoped).onSched (hr.isLive_of_search hh hturn hs t)
      (Sched.spares_search (b := fun _ => True) hs).main

/-! ## Releases -/

/-- What happens when the thread obtains or releases a guard, and when it looks whether that
failed. -/
structure Releases (t : ThreadId) (x : Task) (m m' : Machine) : Prop where
  /-- The thread has what it obtains, and what it is about to release. -/
  has : ∀ g, .obtained g ∈ m.ofTask (guardNotes t) ∨ .released g ∈ m.ofTask (guardNotes t) →
    m.Has t g
  /-- The thread owns the mutex, which goes to the head of the queue and wakes it. -/
  mutex : ∀ name, x = .release name → (m.mutexes.get name).owner = some t ∧
    m'.mutexes.get name =
      ⟨(m.mutexes.get name).waiting.head?, (m.mutexes.get name).waiting.tail⟩ ∧
    ∀ u, (m.mutexes.get name).waiting.head? = some u → m'.sched.isStopped u = false
  /-- The thread has the hold. The lock is handed over as by any release, and all those are woken
  that it may have been handed to. -/
  lock : ∀ (side : RwSide) l, x = side.release l → ∃ out,
    (m.locks.get l).release t side = some out ∧ m'.locks.get l = out.2 ∧ m'.replyOf t = .null ∧
    ∀ k, out.1.rendezvous? l = some k →
      ∀ u ∈ (m.rendezvous.get k).sleepers, m'.sched.isStopped u = false
  /-- There is no failure to report. -/
  check : ∀ exclusive, x = .checkDrop exclusive →
    (∀ e, m.replyOf t ≠ .fault e) ∧ m'.sched.journal = m.sched.journal

theorem isStopped_wakeGranted {l : LockName} {g : Handoff} {k : RendezName} {u : ThreadId}
    (hk : g.rendezvous? l = some k) (hu : u ∈ (m.rendezvous.get k).sleepers) :
    (m.wakeGranted l g).sched.isStopped u = false := by
  have hwoken : ∀ s : Sched, (s.wakeAll (m.rendezvous.get k).sleepers).isStopped u = false :=
    fun s => by simp [Sched.isStopped_wakeAll, hu]
  cases g with
  | nobody => cases hk
  | writer next =>
      obtain rfl := Option.some.inj hk
      exact hwoken _
  | readers count =>
      obtain rfl := Option.some.inj hk
      exact hwoken _

theorem Holding.has (h : Holding t gs m) (hq : m.MutexQueues) (hl : m.LockQueues) (hs : m.Sound)
    (hstack : m.stackOf t = x :: ts)
    (hg : .obtained g ∈ (m.setStack t ts).guardEvents t x ∨
      .released g ∈ (m.setStack t ts).guardEvents t x) : m.Has t g := by
  have hts : (m.setStack t ts).stackOf t = ts := stackOf_onThread ..
  obtain ⟨ks, hdue, howes⟩ := h
  rw [hstack, ← hts, ← replyOf_setStack t ts m] at hdue
  refine howes.has (hdue.stake_mem hg) (fun i _ => hq.not_waiting hs hstack ?_ ?_)
    fun side l hside => hl.not_isQueued hs hstack ?_ ?_
  · rintro rfl
    simp [guardEvents] at hg
  · rintro rfl
    simp [guardEvents] at hg
  · -- Of the tasks that a sleep consists of, only the release is among these, and of a cell.
    subst hside
    cases x with
    | release name =>
        obtain ⟨i, -, he⟩ := MutexName.eq_cell_of_freed? (by simpa [guardEvents] using hg)
        cases side <;> cases he
    | _ => first | rfl | simp [guardEvents] at hg
  · cases x <;> first | rfl | simp [guardEvents] at hg

theorem Holding.releases (h : Holding t gs m) (hq : m.MutexQueues) (hl : m.LockQueues)
    (hs : m.Sound) (hturn : m.sched.turn = .held t) (hstack : m.stackOf t = x :: ts) :
    Releases t x m ((m.setStack t ts).perform t x) := by
  have hhas : ∀ g, .obtained g ∈ m.ofTask (guardNotes t) ∨
      .released g ∈ m.ofTask (guardNotes t) → m.Has t g := fun g hg => by
    rw [ofTask_of_held hturn hstack] at hg
    exact h.has hq hl hs hstack (mem_guardEvents_of_guardNotes hg)
  obtain ⟨ks, hdue, howes⟩ := h
  rw [hstack] at hdue
  refine ⟨hhas, ?_, ?_, ?_⟩
  · rintro name rfl
    obtain ⟨ks', gs', rfl, -⟩ := hdue
    have ho := howes.owner List.mem_cons_self (hq.not_waiting hs hstack (by simp) (by simp))
    exact ⟨ho, (serves_perform hq hs hstack).unlock rfl ho⟩
  · rintro side l rfl
    obtain ⟨ks', gs', rfl, -⟩ := (due_release side).mp hdue
    obtain ⟨out, hout⟩ := howes.exists_release (List.mem_cons_of_mem _ List.mem_cons_self)
      (hl.not_isQueued_release hs hstack)
    refine ⟨out, hout, ?_⟩
    rw [perform_release_of_some (m := m.setStack t ts) hout]
    refine ⟨?_, ?_, fun k hk u hu => ?_⟩
    · show ((((m.setStack t ts).setLock l out.2).wakeGranted l out.1).locks).get l = out.2
      rw [(wakeGranted_frame l out.1 _).2]
      exact get_setLock l out.2 (m.setStack t ts)
    · rw [replyOf_push, replyOf_answer]
    · exact isStopped_wakeGranted (m := (m.setStack t ts).setLock l out.2) hk hu
  · rintro exclusive rfl
    refine ⟨hdue.1, ?_⟩
    show ((m.setStack t ts).checkDrop t exclusive).sched.journal = m.sched.journal
    unfold checkDrop
    split
    · rename_i e hr
      rw [replyOf_setStack] at hr
      exact absurd hr (hdue.1 e)
    · rfl

/-! ## The end of a thread's code -/

/-- The thread's code has come to its end. -/
def Finished (t : ThreadId) (m : Machine) : Prop :=
  m.outcomes.get? t ≠ none ∨ t = m.sched.main ∧ m.mainOutcome ≠ none

/-- A thread whose outcome is stored has left. -/
theorem Reaches.isLive_of_outcome (h : Reaches p.machine m)
    (hids : m.sched.ids.handed ≤ UInt64.size) (ho : m.outcomes.get? t ≠ none) : m.sched.isLive t = false := by
  obtain ⟨σ, hσ⟩ := h.exists_chronicle
  have hrecorded := hσ.recorded hids
  obtain ⟨o, ho⟩ := Option.ne_none_iff_exists'.mp ho
  obtain ⟨hne, hended⟩ := (hrecorded.outcomes t o).mp ho
  by_contra hlive
  exact ((hσ.isLive_iff hids t).mp (by simpa using hlive)).2 (hrecorded.ended t o hne hended)

theorem Guarded.finished (h : Guarded t τ m) (hr : Reaches p.machine m)
    (hids : m.sched.ids.handed ≤ UInt64.size) (hfinished : m.Finished t) :
    nesting [] τ = some [] ∧ m.Owes t [] := by
  cases hlive : m.sched.isLive t with
  | false => exact h.dead hlive
  | true =>
      rcases hfinished with ho | ⟨hmain, ho⟩
      · exact absurd ((hr.isLive_of_outcome hids ho).symm.trans hlive) Bool.false_ne_true
      · obtain ⟨gs, hnest, ks, hdue, howes⟩ := h.live hlive
        have hnone : ks = [] ∧ gs = [] := by
          rcases h.main hmain ho hlive with he | he <;> rw [he] at hdue
          · exact hdue.2
          · exact hdue.2
        obtain ⟨rfl, rfl⟩ := hnone
        exact ⟨hnest, howes⟩

/-- Guards are released on every path. Take a thread whose code takes mutexes and locks only through
blocks, nested in any way and with sleeps inside, at any moment of any run in which no giver has
panicked; the code of the other threads is arbitrary. Its guards nest: each was released as the
innermost one, and the thread has what it obtains and what it releases. No release fails, also not
while the thread panics: the thread owns the mutex or has the hold, and what it gives up goes to
those that wait for it. When the code of the thread has come to its end, whether by a panic or not,
all guards have been released, no mutex has the thread as its owner or in its queue, and no lock has
it as its writer, among its readers or in a queue. -/
theorem Observed.guards_released (h : Observed (ofTask (guardNotes t)) p τ m)
    (hids : m.sched.ids.history.Nodup)
    (hscoped : ∀ code ∈ p.codeOf t τ, Instr.areScoped code = true) :
    (∃ gs, nesting [] τ = some gs) ∧
    (∀ x ts m', m.sched.turn = .held t → m.stackOf t = x :: ts → m.step = some m' →
      Releases t x m m') ∧
    (m.Finished t → nesting [] τ = some [] ∧
      (∀ name, (m.mutexes.get name).owner ≠ some t ∧ t ∉ (m.mutexes.get name).waiting) ∧
      ∀ l, (m.locks.get l).writer ≠ some t ∧ t ∉ (m.locks.get l).readers ∧
        t ∉ (m.locks.get l).readQueue ∧ t ∉ (m.locks.get l).writeQueue) := by
  have hhanded := IdAllocator.nodup_history_iff.mp hids
  have hr := h.reaches
  have hs := hr.sound hhanded
  have hguarded := h.guarded hhanded hscoped
  refine ⟨?_, fun x ts m' hturn hstack hstep => ?_, fun hfinished => ?_⟩
  · cases hlive : m.sched.isLive t with
    | true => exact (hguarded.live hlive).imp fun _ hgs => hgs.1
    | false => exact ⟨[], (hguarded.dead hlive).1⟩
  · have hlive := Sched.isLive_of_isRunning (hs.coherent.isRunning_of_held hturn)
    obtain ⟨gs, -, hheld⟩ := hguarded.live hlive
    rw [eq_perform_of_step hturn hstack hstep]
    exact hheld.releases (hr.mutexQueues hhanded) (hr.lockQueues hhanded) hs hturn hstack
  · obtain ⟨hnest, howes⟩ := hguarded.finished hr hhanded hfinished
    exact ⟨hnest, howes.unknown⟩

/-- A thread takes a cell, reads behind a lock twice, and panics when it takes the cell again. -/
def relocking : Program :=
  { Program.blank with code :=
      [[.spawn 1, .join 2],
        [.scope (.cell 0)
          [.scope (.read (.raw 0)) [.scope (.read (.raw 0)) [.scope (.cell 0) []]]]]] }

/-- After forty-three steps the thread has panicked: it has released the lock twice and the cell. -/
theorem guards_released_relocking :
    (relocking.final 43).sched.ids.history.Nodup ∧
      (∀ code ∈ relocking.codeOf 2 (relocking.machine.notes (ofTask (guardNotes 2)) 43),
        Instr.areScoped code = true) ∧
      (relocking.final 43).Finished 2 ∧
      (relocking.machine.notes (ofTask (guardNotes 2)) 43).length = 7 ∧
      nesting [] (relocking.machine.notes (ofTask (guardNotes 2)) 43) = some [] ∧
      ((relocking.final 43).mutexes.get (.cell 0)).owner ≠ some 2 ∧
      2 ∉ ((relocking.final 43).locks.get (.raw 0)).readers := by
  have hids : (relocking.final 43).sched.ids.history.Nodup := by decide
  have hscoped : ∀ code ∈ relocking.codeOf 2 (relocking.machine.notes (ofTask (guardNotes 2)) 43),
      Instr.areScoped code = true := by decide
  have houtcome : (relocking.final 43).outcomes.get? 2 ≠ none := by decide
  have hnotes : (relocking.machine.notes (ofTask (guardNotes 2)) 43).length = 7 := by decide
  obtain ⟨-, -, hfinished⟩ :=
    (observed_final (ofTask (guardNotes 2)) 43 relocking).guards_released hids hscoped
  obtain ⟨hnest, hmutexes, hlocks⟩ := hfinished (.inl houtcome)
  exact ⟨hids, hscoped, .inl houtcome, hnotes, hnest, (hmutexes _).1, (hlocks _).2.1⟩

end Machine

end Baton
