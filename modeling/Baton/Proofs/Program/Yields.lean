import Baton.Proofs.Program.Refusals
import Baton.Proofs.Sched.Line

/-!
# Machine: yielding lets everyone else go first

A thread that yields goes to the end of the line of ready threads, so exactly those that were ready
have the turn before it, each once and in order, whatever they do with it. Every round of a read or
write begins with a yield. So a read or write of an open end returns only after all threads that
were ready have had the turn, even if the end was ready from the start.
-/

namespace Baton

/-- What a round of a read or write does after its yield. -/
def PipeCall.afterYield (c : PipeCall) : List Task :=
  [.selectHere [.ask (.pipe c.pipe c.side) c.direction.interest] none, .attempt c]

namespace Machine

open Sched (InLine RunsLast Quiet)

variable {p : Program} {m n k : Machine} {me : ThreadId} {ts : List Task} {c : PipeCall}
  {ahead done : List ThreadId}

/-- At every moment of a run the running thread is the one dispatched last. -/
theorem Reaches.runsLast (h : Reaches p.machine m) (hids : m.sched.ids.handed ≤ UInt64.size) :
    m.sched.RunsLast := by
  obtain ⟨τ, hτ⟩ := h.observed fun _ => ([] : List Unit)
  refine hτ.keeps (P := fun _ m => m.sched.RunsLast) hids ?_ ?_ ?_ ?_ fun _ _ _ hm => hm
  · intro t hrun
    rw [Sched.isRunning_eq, show p.machine.sched = Sched.start p.idlePoll from rfl,
      Sched.standing_start] at hrun
    by_cases ht : t = .first
    · exact ht.symm
    · simp [ht] at hrun
  · intro _ m me x ts hm hr hh hturn hstack hids'
    have hmoves := perform_moves me x (m.setStack me ts)
    have hcoherent := hr.coherent hh
    exact hm.moves (hcoherent.moves hturn hmoves hids') hturn (hcoherent.isRunning_of_held hturn)
      hmoves
  · exact fun _ m s hm hr hh _ hs => hm.search (hr.coherent hh) hs
  · exact fun _ m s hm _ hquiet => hm.quiet hquiet

/-! ## A yield -/

/-- As long as a thread does not have the turn it stands in the line, or the baton lies ready for it
after all those ahead. -/
theorem Along.inLine (h : Along (fun k => k.sched.turn ≠ .held me) m n)
    (hr : Reaches p.machine m) (hids : n.sched.ids.handed ≤ UInt64.size)
    (hline : m.sched.InLine me ahead done) : n.sched.InLine me ahead done :=
  h.keeps_each (Q := fun k => k.sched.InLine me ahead done) hr hids hline
    (fun k u x ts hk haway hreach hhanded hturn _ _ =>
      hk.moves (hreach.coherent hhanded) hturn (fun he => haway (he ▸ hturn))
        (perform_moves u x (k.setStack u ts)))
    (fun _ _ hk hreach hhanded _ hs => hk.search (hreach.coherent hhanded) hs)
    (fun _ _ hk hquiet _ => hk.quiet hquiet) fun _ _ hk => hk

/-- The thread `me` yields in its next step, and then those go first that are ready now. -/
structure LetsOthersFirst (me : ThreadId) (m : Machine) : Prop where
  steps : ∃ k, m.step = some k ∧ k.sched.turn = .seeking me ∧
    k.sched.ready = m.sched.ready ++ [me] ∧ k.sched.dispatched = m.sched.dispatched
  /-- Each of them is in the queue once, and they are all that can run. -/
  once : m.sched.ready.Nodup ∧ me ∉ m.sched.ready ∧
    ∀ t, t ∈ m.sched.ready ↔ m.sched.isRunnable t = true
  /-- Until the thread has the turn again only they have it, in the order of the queue. -/
  between : ∀ k n, m.step = some k → Along (fun k => k.sched.turn ≠ .held me) k n →
    n.sched.ids.history.Nodup → ∃ us, us <+: m.sched.ready ++ [me] ∧
      n.sched.dispatched = us.reverse ++ m.sched.dispatched ∧
      ∀ t, n.sched.turn = .held t → us.getLast? = some t
  /-- By then all of them have had it. -/
  back : ∀ k n, m.step = some k → Along (fun k => k.sched.turn ≠ .held me) k n →
    n.sched.ids.history.Nodup → n.sched.turn = .held me →
    n.sched.dispatched = (m.sched.ready ++ [me]).reverse ++ m.sched.dispatched

theorem Reaches.letsOthersFirst (h : Reaches p.machine m) (hids : m.sched.ids.history.Nodup)
    (hturn : m.sched.turn = .held me) (hstack : m.stackOf me = .pause :: ts) :
    m.LetsOthersFirst me := by
  have hhanded := IdAllocator.nodup_history_iff.mp hids
  have hcoherent := h.coherent hhanded
  have hrunning := hcoherent.isRunning_of_held hturn
  have hstep := step_of_held hturn hstack
  have hline : ∀ k n, m.step = some k → Along (fun k => k.sched.turn ≠ .held me) k n →
      n.sched.ids.history.Nodup → n.sched.Coherent ∧ n.sched.RunsLast ∧
        n.sched.InLine me m.sched.ready m.sched.dispatched := by
    intro k n hk hrun hids'
    have hhanded' := IdAllocator.nodup_history_iff.mp hids'
    have hreach : Reaches p.machine k := .step h hk
    have hn := hrun.reaches hreach
    obtain rfl := Option.some.inj (hstep.symm.trans hk)
    exact ⟨hn.coherent hhanded', hn.runsLast hhanded',
      hrun.inLine hreach hhanded' (Sched.inLine_yieldNow me m.sched)⟩
  have hback : ∀ k n, m.step = some k → Along (fun k => k.sched.turn ≠ .held me) k n →
      n.sched.ids.history.Nodup → n.sched.turn = .held me →
      n.sched.dispatched = (m.sched.ready ++ [me]).reverse ++ m.sched.dispatched := by
    intro k n hk hrun hids' ht
    obtain ⟨hc, -, hin⟩ := hline k n hk hrun hids'
    rw [hin.dispatched_of_isRunning hc (hc.isRunning_of_held ht)]
    simp
  refine ⟨⟨_, hstep, rfl, rfl, rfl⟩, ⟨hcoherent.nodup_ready, ?_, hcoherent.mem_ready_iff⟩, ?_,
    hback⟩
  · rw [hcoherent.mem_ready_iff, Sched.isRunnable_eq_false_of_isRunning hrunning]
    simp
  · intro k n hk hrun hids'
    obtain ⟨hc, hlast, hin⟩ := hline k n hk hrun hids'
    obtain ⟨us, hprefix, hdispatched⟩ := hin.exists_dispatched
    refine ⟨us, hprefix, hdispatched, fun t ht => ?_⟩
    have hhead := hlast t (hc.isRunning_of_held ht)
    rw [hdispatched] at hhead
    rcases List.eq_nil_or_concat us with rfl | ⟨vs, v, rfl⟩
    · -- Nobody has been dispatched since, so it is the thread itself, and it has been.
      obtain rfl : me = t := (h.runsLast hhanded me hrunning).symm.trans hhead
      have hlength := congrArg List.length (hdispatched.symm.trans (hback k n hk hrun hids' ht))
      simp at hlength
      omega
    · simpa using hhead

/-! ## Reads and writes -/

/-- How far a read or write has come that began when those in `ready` were in line and those in
`done` had been dispatched. -/
inductive Transferring (c : PipeCall) (ts : List Task) (me : ThreadId)
    (ready done : List ThreadId) (m : Machine) : Prop where
  | begins : m.sched.turn = .held me → m.host = .coop →
      (m.pipes.get c.pipe).isOpen c.side = true → ready <+: m.sched.ready →
      m.sched.dispatched = done → m.stackOf me = .transfer c :: ts →
      Transferring c ts me ready done m
  | yields : m.sched.turn = .held me → ready <+: m.sched.ready → m.sched.dispatched = done →
      m.stackOf me = .pause :: (c.afterYield ++ ts) → Transferring c ts me ready done m
  | waits (line : List ThreadId) : m.sched.turn ≠ .held me → ready <+: line →
      m.sched.InLine me line done → m.stackOf me = c.afterYield ++ ts →
      Transferring c ts me ready done m
  /-- All of them have had the turn. -/
  | gone : ready.reverse ++ done <:+ m.sched.dispatched → Transferring c ts me ready done m

/-- A read or write of an open end begins with a yield. -/
theorem perform_transfer (hhost : m.host = .coop)
    (hopen : (m.pipes.get c.pipe).isOpen c.side = true) :
    m.perform me (.transfer c) = m.push me (.pause :: c.afterYield) := by
  show m.transfer me c = _
  rw [transfer, if_pos hopen, transferRound, hhost]
  rfl

variable {x : Task} {us : List Task} {ready : List ThreadId} {s : Sched}

theorem Transferring.perform (h : Transferring c ts me ready done m)
    (hturn : m.sched.turn = .held me) (hstack : m.stackOf me = x :: us)
    (hbusy : m.stackOf me ≠ ts) :
    Transferring c ts me ready done ((m.setStack me us).perform me x) := by
  have hus : (m.setStack me us).stackOf me = us := stackOf_onThread ..
  cases h with
  | begins _ hhost hopen hready hdone hs =>
      obtain ⟨rfl, rfl⟩ := List.cons.inj (hstack.symm.trans hs)
      rw [perform_transfer (m := m.setStack me us) hhost hopen]
      refine .yields hturn hready hdone ?_
      rw [stackOf_push, hus]
      rfl
  | yields _ hready hdone hs =>
      obtain ⟨rfl, rfl⟩ := List.cons.inj (hstack.symm.trans hs)
      refine .waits m.sched.ready ?_ hready (hdone ▸ Sched.inLine_yieldNow me m.sched) hus
      show Turn.seeking me ≠ .held me
      simp
  | waits _ haway => exact absurd hturn haway
  | gone hgone =>
      have hjoined := (perform_moves me x (m.setStack me us)).joined
      exact .gone (hjoined.dispatched ▸ hgone)

/-- Another thread runs. -/
theorem Transferring.perform_other {u : ThreadId} (h : Transferring c ts me ready done m)
    (hr : Reaches p.machine m) (hids : m.sched.ids.handed ≤ UInt64.size)
    (hturn : m.sched.turn = .held u) (hne : me ≠ u) (hstack : m.stackOf u = x :: us)
    (hids' : ((m.setStack u us).perform u x).sched.ids.handed ≤ UInt64.size) :
    Transferring c ts me ready done ((m.setStack u us).perform u x) := by
  have hmoves := perform_moves u x (m.setStack u us)
  have hother : m.sched.turn ≠ .held me := by
    rw [hturn]
    exact fun he => hne (Turn.held.inj he).symm
  cases h with
  | begins ht | yields ht => exact absurd ht hother
  | waits line _ hready hline hs =>
      have hcoherent := hr.coherent hids
      have hown := ((hr.sound hids).spares hturn hstack hids').own me hne
        (hline.isLive hcoherent)
      refine .waits line ?_ hready (hline.moves hcoherent hturn hne hmoves)
        ((congrArg Thread.stack hown).trans hs)
      rcases hmoves.turn_eq_or_isFree with hsame | hfree
      · rw [hsame]
        exact hother
      · exact hfree.2 me
  | gone hgone => exact .gone (hmoves.joined.dispatched ▸ hgone)

/-- The search for the next thread gives the turn back once all have had it. -/
theorem Transferring.search (h : Transferring c ts me ready done m) (hc : m.sched.Coherent)
    (hnobody : ∀ t, m.sched.turn ≠ .held t) (hs : m.sched.search m.system = some s) :
    Transferring c ts me ready done { m with sched := s } := by
  cases h with
  | begins ht | yields ht => exact absurd ht (hnobody me)
  | waits line _ hready hline hstack =>
      have hline' := hline.search hc hs
      by_cases ht : s.turn = .held me
      · have hc' := hc.search hs
        have hdispatched := hline'.dispatched_of_isRunning hc' (hc'.isRunning_of_held ht)
        obtain ⟨later, rfl⟩ := hready
        refine .gone ⟨me :: later.reverse, ?_⟩
        rw [hdispatched]
        simp
      · exact .waits line ht hready hline' hstack
  | gone hgone =>
      rcases hc.search_cases hs with ⟨hjoined, -⟩ | ⟨-, u, -, hdispatched, -⟩
      · exact .gone (hjoined.dispatched ▸ hgone)
      · exact .gone (hdispatched ▸ hgone.trans (List.suffix_cons u _))

theorem Transferring.quiet (h : Transferring c ts me ready done m) (hq : Quiet m.sched s) :
    Transferring c ts me ready done { m with sched := s } := by
  obtain ⟨hready', hsame⟩ := hq.joined
  cases h with
  | begins ht hhost hopen hready hdone hstack =>
      exact .begins (hq.turn.trans ht) hhost hopen (hready.trans hready') (hsame.trans hdone) hstack
  | yields ht hready hdone hstack =>
      exact .yields (hq.turn.trans ht) (hready.trans hready') (hsame.trans hdone) hstack
  | waits line ht hready hline hstack =>
      exact .waits line (hq.turn ▸ ht) hready (hline.quiet hq) hstack
  | gone hgone => exact .gone (hsame ▸ hgone)

/-- What holds when it is over. -/
theorem Transferring.over_of (h : Transferring c ts me ready done m) (hover : m.stackOf me = ts) :
    ready.reverse ++ done <:+ m.sched.dispatched := by
  cases h with
  | gone hgone => exact hgone
  | begins _ _ _ _ _ hs | yields _ _ _ hs | waits _ _ _ _ hs =>
      have hlength := congrArg List.length (hs.symm.trans hover)
      simp only [PipeCall.afterYield, List.length_append, List.length_cons] at hlength
      omega

theorem Along.transferring (h : Along (fun k => k.stackOf me ≠ ts) m n)
    (hr : Reaches p.machine m) (hids : n.sched.ids.handed ≤ UInt64.size)
    (hstart : Transferring c ts me ready done m) : Transferring c ts me ready done n := by
  refine h.keeps_each hr hids hstart ?_ ?_ (fun _ _ hk hq _ => hk.quiet hq) fun _ _ hk => ?_
  · intro k u x us hk hbusy hreach hhanded hturn hstack hids'
    by_cases hne : me = u
    · subst hne
      exact hk.perform hturn hstack hbusy
    · exact hk.perform_other hreach hhanded hturn hne hstack hids'
  · exact fun _ _ hk hreach hhanded hnobody hs =>
      hk.search (hreach.coherent hhanded) hnobody hs
  · cases hk with
    | begins ht hhost hopen hready hdone hs => exact .begins ht hhost hopen hready hdone hs
    | yields ht hready hdone hs => exact .yields ht hready hdone hs
    | waits line ht hready hline hs => exact .waits line ht hready hline hs
    | gone hgone => exact .gone hgone

/-- A read or write of an open end returns after all who could run when it began have had the
turn. -/
theorem Reaches.transfer_lets_all_go (h : Reaches p.machine m) (hids : m.sched.ids.history.Nodup)
    (hhost : m.host = .coop) (hturn : m.sched.turn = .held me)
    (hstack : m.stackOf me = .transfer c :: ts)
    (hopen : (m.pipes.get c.pipe).isOpen c.side = true)
    (hrun : Along (fun k => k.stackOf me ≠ ts) m n) (hids' : n.sched.ids.history.Nodup)
    (hover : n.stackOf me = ts) :
    ∃ us, n.sched.dispatched = us ++ m.sched.dispatched ∧
      ∀ t, m.sched.isRunnable t = true → t ∈ us := by
  have hstart : Transferring c ts me m.sched.ready m.sched.dispatched m :=
    .begins hturn hhost hopen List.prefix_rfl rfl hstack
  obtain ⟨later, hlater⟩ := (hrun.transferring h (IdAllocator.nodup_history_iff.mp hids')
    hstart).over_of hover
  refine ⟨later ++ m.sched.ready.reverse, by rw [← hlater, List.append_assoc], fun t ht => ?_⟩
  have hcoherent := h.coherent (IdAllocator.nodup_history_iff.mp hids)
  exact List.mem_append_right _ (List.mem_reverse.mpr ((hcoherent.mem_ready_iff t).mpr ht))

end Machine

open Machine (Reaches Along)

/-- In every run in which no giver panics, a thread that yields lets exactly those go first that are
ready, each once and in the order of the queue. So a read or write of an open end returns only after
all who could run when it began have had the turn. -/
theorem yields_let_others_first :
    (∀ me, Instr.yield.replyTasks .coop me = [.pause, .answer .null]) ∧
    (∀ me c, (Instr.transfer c).replyTasks .coop me = [.transfer c]) ∧
    ∀ (p : Program) (m : Machine) (me : ThreadId) (ts : List Task), Reaches p.machine m →
      m.sched.ids.history.Nodup → m.sched.turn = .held me →
      (m.stackOf me = .pause :: ts → m.LetsOthersFirst me) ∧
      ∀ c : PipeCall, m.host = .coop → m.stackOf me = .transfer c :: ts →
        (m.pipes.get c.pipe).isOpen c.side = true →
        ∀ n, Along (fun k => k.stackOf me ≠ ts) m n → n.sched.ids.history.Nodup →
          n.stackOf me = ts → ∃ us, n.sched.dispatched = us ++ m.sched.dispatched ∧
            ∀ t, m.sched.isRunnable t = true → t ∈ us :=
  ⟨fun _ => rfl, fun _ _ => rfl, fun _ _ _ _ h hids hturn =>
    ⟨h.letsOthersFirst hids hturn, fun _ hhost hstack hopen _ hrun hids' =>
      h.transfer_lets_all_go hids hhost hturn hstack hopen hrun hids'⟩⟩

/-- The main thread reads at the end of a stream. One of the two others yields, and one ends. -/
def courteous : Program :=
  { Program.blank with code :=
      [[.close 0 .writer, .spawn 1, .spawn 2, .transfer (.read 0 1)], [.yield], []] }

/-- The read begins after eleven steps with the others ready, and the main thread yields in the next
step but one. After twelve more it has the turn again, with the second thread, which has yielded
meanwhile, behind it. Two steps later the read returns. -/
theorem yields_let_others_first_courteous :
    let m := courteous.final 11
    let yielding := courteous.final 12
    let back := (yielding.run 1).run 12
    m.sched.ready = [2, 3] ∧ back.sched.ready = [2] ∧ back.sched.dispatched = [1, 3, 2] ∧
      ∃ us, (m.run 16).sched.dispatched = us ++ m.sched.dispatched ∧ 2 ∈ us ∧ 3 ∈ us := by
  have hover : ((courteous.final 11).run 16).stackOf 1 = [.report "read", .exit] := by rfl
  intro m yielding back
  have hm : Reaches courteous.machine m := (Reaches.refl _).run 11
  have hyielding : Reaches courteous.machine yielding := (Reaches.refl _).run 12
  have hlets := yields_let_others_first.2.2 courteous
  have hyields := (hlets yielding 1 _ hyielding (by decide) (by decide)).1 rfl
  obtain ⟨k, hk, -⟩ := hyields.steps
  have hstep : yielding.step = some (yielding.run 1) := by
    rw [hk, Machine.run_succ_of_step 0 hk]
    rfl
  have haway : Along (fun k => k.sched.turn ≠ .held 1) (yielding.run 1) back :=
    .run 12 (by decide)
  have hback := hyields.back _ back hstep haway (by decide) (by decide)
  have hrun : Along (fun k => k.stackOf 1 ≠ [.report "read", .exit]) m (m.run 16) :=
    .run 16 fun k hk he => by
      have hlength : ∀ k < 16, ((m.run k).stackOf 1).length ≠ 2 := by decide
      exact hlength k hk (congrArg List.length he)
  obtain ⟨us, hus, hall⟩ := (hlets m 1 _ hm (by decide) (by decide)).2 (.read 0 1) rfl rfl
    (by decide) (m.run 16) hrun (by decide) hover
  exact ⟨by decide, by decide, hback.trans (by decide), us, hus, hall 2 (by decide),
    hall 3 (by decide)⟩

end Baton
