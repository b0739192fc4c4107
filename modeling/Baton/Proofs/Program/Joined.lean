import Baton.Proofs.Program.Drained
import Baton.Proofs.Program.Observed
import Baton.Proofs.Program.Stacks

/-!
# Machine: joins

A join looks for the outcome of its target. If there is none it suspends, and looks again whenever
it is resumed; outside of the scheduler it panics instead. What one look makes of a join is read off
the chronicle of the run (`Joins`), and between its looks a join stays where it is (`Rejoining`). So
it returns with the outcome of its target and after the end of that, whatever wakeups the thread
receives. When a run is over every thread that was started in it has ended, and its outcome is
stored.
-/

namespace Baton

namespace Machine

variable {p : Program} {τ : List Happening} {m n : Machine} {me t : ThreadId} {ts : List Task}
  {o : Outcome}

/-! ## One look -/

/-- What a step of `me` makes of a join of `t`, when `τ` is what has happened before. -/
structure Joins (τ : List Happening) (me t : ThreadId) (m n : Machine) : Prop where
  /-- The handle is taken, and a look comes next. -/
  takes : ∀ ts, m.stackOf me = .join t :: ts → t ∈ m.handles →
    n.stackOf me = .awaitThread t :: ts ∧ n.handles = m.handles.erase t
  /-- If the target has ended the join returns with its outcome. -/
  returns : ∀ ts o, m.stackOf me = .awaitThread t :: ts → .ended t o ∈ τ →
    .joined me t o ∈ m.happenings ∧ n.stackOf me = ts ∧ n.replyOf me = .joined o
  /-- If it has not the thread suspends, and looks again after that. -/
  repeats : ∀ ts, m.stackOf me = .awaitThread t :: ts → (∀ o, .ended t o ∉ τ) →
    n.stackOf me = .suspend :: .awaitThread t :: ts ∧ n.replyOf me = m.replyOf me
  /-- Outside of the scheduler there is one look, which panics if the target has not ended. -/
  outside : ∀ ts, m.stackOf me = .joinOutside t :: ts → t ∈ m.handles → n.stackOf me = ts ∧
    (∀ o, .ended t o ∈ τ → .joined me t o ∈ m.happenings ∧ n.replyOf me = .joined o) ∧
    ((∀ o, .ended t o ∉ τ) → ∃ text, n.replyOf me = .joinPanicked text)
  /-- Without the handle there is nothing to join. -/
  handleless : ∀ x ts, x = .join t ∨ x = .joinOutside t → m.stackOf me = x :: ts →
    t ∉ m.handles → n.stackOf me = ts ∧ n.replyOf me = .noHandle

theorem awaitThread_of_some (hget : m.outcomes.get? t = some o) :
    m.awaitThread me t = m.answer me (.joined o) := by
  rw [awaitThread, hget]

theorem awaitThread_of_none (hget : m.outcomes.get? t = none) :
    m.awaitThread me t = (m.onSched (Sched.addJoiner t me)).push me [.suspend, .awaitThread t] := by
  rw [awaitThread, hget]

theorem joinOutside_of_some (hin : t ∈ m.handles) (hget : m.outcomes.get? t = some o) :
    m.joinOutside me t = { m with handles := m.handles.erase t }.answer me (.joined o) := by
  rw [joinOutside, if_pos hin, hget]

theorem joinOutside_of_none (hin : t ∈ m.handles) (hget : m.outcomes.get? t = none) :
    ∃ text, m.joinOutside me t =
      { m with handles := m.handles.erase t }.answer me (.joinPanicked text) := by
  rw [joinOutside, if_pos hin, hget]
  exact ⟨_, rfl⟩

theorem Recorded.joins (h : Recorded τ m) (hs : m.Sound) (hturn : m.sched.turn = .held me)
    (hstep : m.step = some n) : Joins τ me t m n := by
  have hperform : ∀ {x ts}, m.stackOf me = x :: ts → n = (m.setStack me ts).perform me x :=
    fun hstack => eq_perform_of_step hturn hstack hstep
  have hts : ∀ ts, (m.setStack me ts).stackOf me = ts := fun ts => stackOf_onThread ..
  have hhandle : t ∈ m.handles → t ≠ m.sched.main := fun hin => (hs.handles t hin).1
  have hawaits : ∀ {ts}, m.stackOf me = .awaitThread t :: ts → t ≠ m.sched.main := by
    intro ts hstack
    have hkept : m.Kept me (.awaitThread t) := (hstack ▸ hs.onCourse me).kept_head
    exact hkept.1
  have hknown : ∀ {o}, t ≠ m.sched.main → .ended t o ∈ τ → m.outcomes.get? t = some o :=
    fun hne hended => (h.outcomes t _).mpr ⟨hne, hended⟩
  have hunknown : (∀ o, .ended t o ∉ τ) → m.outcomes.get? t = none := by
    intro hnever
    rw [Option.eq_none_iff_forall_ne_some]
    exact fun o hget => hnever o ((h.outcomes t o).mp hget).2
  refine ⟨fun ts hstack hin => ?_, fun ts o hstack hended => ?_, fun ts hstack hnever => ?_,
    fun ts hstack hin => ?_, fun x ts hx hstack hnot => ?_⟩
  · obtain rfl : n = _ := hperform hstack
    have hjoin : (m.setStack me ts).perform me (.join t) =
        { m.setStack me ts with handles := m.handles.erase t }.push me [.awaitThread t] :=
      if_pos hin
    rw [hjoin]
    refine ⟨?_, rfl⟩
    rw [stackOf_push]
    exact congrArg (.awaitThread t :: ·) (hts ts)
  · obtain rfl : n = _ := hperform hstack
    have hget : (m.setStack me ts).outcomes.get? t = some o := hknown (hawaits hstack) hended
    refine ⟨?_, ?_, ?_⟩
    · rw [happenings_of_held hturn hstack]
      show _ ∈ joining me t _
      rw [joining, hget]
      exact List.mem_singleton_self _
    · rw [Machine.perform, awaitThread_of_some hget, stackOf_answer, hts]
    · rw [Machine.perform, awaitThread_of_some hget, replyOf_answer]
  · obtain rfl : n = _ := hperform hstack
    have hget : (m.setStack me ts).outcomes.get? t = none := hunknown hnever
    rw [Machine.perform, awaitThread_of_none hget, stackOf_push, replyOf_push]
    exact ⟨congrArg ([.suspend, .awaitThread t] ++ ·) (hts ts), replyOf_setStack ..⟩
  · obtain rfl : n = _ := hperform hstack
    have hin' : t ∈ (m.setStack me ts).handles := hin
    refine ⟨?_, fun o hended => ?_, fun hnever => ?_⟩
    · rw [Machine.perform, joinOutside, if_pos hin', stackOf_answer]
      exact hts ts
    · have hget : (m.setStack me ts).outcomes.get? t = some o := hknown (hhandle hin) hended
      rw [Machine.perform, joinOutside_of_some hin' hget, replyOf_answer,
        happenings_of_held hturn hstack]
      refine ⟨?_, rfl⟩
      show _ ∈ if t ∈ m.handles then joining me t (m.setStack me ts) else []
      rw [if_pos hin, joining, hget]
      exact List.mem_singleton_self _
    · have hget : (m.setStack me ts).outcomes.get? t = none := hunknown hnever
      obtain ⟨text, houtside⟩ := joinOutside_of_none hin' hget
      rw [Machine.perform, houtside, replyOf_answer]
      exact ⟨text, rfl⟩
  · obtain rfl : n = _ := hperform hstack
    have hanswer : (m.setStack me ts).perform me x = (m.setStack me ts).answer me .noHandle := by
      rcases hx with rfl | rfl <;> exact if_neg hnot
    rw [hanswer, stackOf_answer, replyOf_answer]
    exact ⟨hts ts, rfl⟩

/-! ## From look to look -/

/-- Where a join of `t` is that has taken the handle and returns to `ts`. -/
inductive Rejoining (me t : ThreadId) (ts : List Task) (m : Machine) : Prop where
  | looking : m.stackOf me = .awaitThread t :: ts → Rejoining me t ts m
  | suspending : m.stackOf me = .suspend :: .awaitThread t :: ts → Rejoining me t ts m
  | returned (o : Outcome) : m.stackOf me = ts → m.replyOf me = .joined o →
      m.outcomes.get? t = some o → Rejoining me t ts m

theorem Rejoining.congr (h : Rejoining me t ts m) (hown : n.threads.get me = m.threads.get me)
    (houtcomes : n.outcomes = m.outcomes) : Rejoining me t ts n := by
  have hstack : n.stackOf me = m.stackOf me := congrArg Thread.stack hown
  have hreply : n.replyOf me = m.replyOf me := congrArg Thread.reply hown
  cases h with
  | looking hs => exact .looking (hstack.trans hs)
  | suspending hs => exact .suspending (hstack.trans hs)
  | returned o hs hr ho => exact .returned o (hstack.trans hs) (hreply.trans hr) (houtcomes ▸ ho)

/-- The thread's own tasks bring it from one point to the next. -/
theorem Rejoining.perform {x : Task} {us : List Task} (h : Rejoining me t ts m)
    (hbusy : m.stackOf me ≠ ts) (hstack : m.stackOf me = x :: us) :
    Rejoining me t ts ((m.setStack me us).perform me x) := by
  have hus : (m.setStack me us).stackOf me = us := stackOf_onThread ..
  cases h with
  | looking hs =>
      obtain ⟨rfl, rfl⟩ := List.cons.inj (hstack.symm.trans hs)
      cases hget : (m.setStack me us).outcomes.get? t with
      | none =>
          refine .suspending ?_
          rw [Machine.perform, awaitThread_of_none hget, stackOf_push]
          exact congrArg ([.suspend, .awaitThread t] ++ ·) hus
      | some o =>
          refine .returned o ?_ ?_ ?_ <;> rw [Machine.perform, awaitThread_of_some hget]
          · rw [stackOf_answer, hus]
          · rw [replyOf_answer]
          · exact hget
  | suspending hs =>
      obtain ⟨rfl, rfl⟩ := List.cons.inj (hstack.symm.trans hs)
      exact .looking hus
  | returned _ hs => exact absurd hs hbusy

/-- A join that looks for the outcome is live. -/
theorem Rejoining.isLive (h : Rejoining me t ts m) (hbusy : m.stackOf me ≠ ts)
    (hr : Reaches p.machine m) (hids : m.sched.ids.handed ≤ UInt64.size) :
    m.sched.isLive me = true := by
  by_contra hdead
  have hplain := hr.plain_of_dead hids me (by simpa using hdead) (.awaitThread t)
  cases h with
  | looking hs => cases hplain (by rw [hs]; exact List.mem_cons_self)
  | suspending hs => cases hplain (by rw [hs]; exact List.mem_cons_of_mem _ List.mem_cons_self)
  | returned _ hs => exact hbusy hs

/-- However the run goes on, the join stays on its way until it returns. -/
theorem Rejoining.along (h : Rejoining me t ts m) (hr : Reaches p.machine m)
    (hrun : Along (fun k => k.stackOf me ≠ ts) m n)
    (hids : n.sched.ids.handed ≤ UInt64.size) : Rejoining me t ts n := by
  refine hrun.keeps hr hids h ?_ (fun _ _ hk _ => hk.congr rfl rfl) fun _ _ hk => hk.congr rfl rfl
  intro k u x us hk hbusy hreach hhanded hturn hstack hids'
  by_cases hne : me = u
  · subst hne
    exact hk.perform hbusy hstack
  · have hspares := (hreach.sound hhanded).spares hturn hstack hids'
    have hown := hspares.own me hne (hk.isLive hbusy hreach hhanded)
    have hsame : stackOf me ((k.setStack u us).perform u x) = k.stackOf me :=
      congrArg Thread.stack hown
    cases hk with
    | looking hs => exact .looking (hsame.trans hs)
    | suspending hs => exact .suspending (hsame.trans hs)
    | returned _ hs => exact absurd hs hbusy

/-- A join returns with an outcome, which is that of its target. -/
theorem Reaches.joined_of_returned (hr : Reaches p.machine m)
    (hstack : m.stackOf me = .awaitThread t :: ts)
    (hrun : Along (fun k => k.stackOf me ≠ ts) m n) (hids : n.sched.ids.handed ≤ UInt64.size)
    (hback : n.stackOf me = ts) :
    ∃ o, n.replyOf me = .joined o ∧ n.outcomes.get? t = some o := by
  cases Rejoining.along (.looking hstack) hr hrun hids with
  | looking hs => exact absurd (hs.symm.trans hback) (List.cons_ne_self _ _)
  | suspending hs =>
      have hlength : (Task.suspend :: .awaitThread t :: ts).length = ts.length :=
        congrArg List.length (hs.symm.trans hback)
      simp only [List.length_cons] at hlength
      omega
  | returned o _ hreply hget => exact ⟨o, hreply, hget⟩

/-! ## Runs and joins -/

/-- A join answers the outcome with which it returns. -/
theorem replyOf_of_joined (hstep : m.step = some n) (hmem : .joined me t o ∈ m.happenings) :
    n.replyOf me = .joined o := by
  rcases step_cases hstep with ⟨u, x, ts, hturn, hstack, rfl⟩ | ⟨hturn, s, -, rfl⟩
  · rw [happenings_of_held hturn hstack] at hmem
    obtain ⟨rfl, hget, hx⟩ := joined_mem_happeningsOf hmem
    rcases hx with rfl | ⟨rfl, hin⟩
    · rw [Machine.perform, awaitThread_of_some hget]
      exact replyOf_answer ..
    · rw [Machine.perform, joinOutside_of_some hin hget]
      exact replyOf_answer ..
  · rw [happenings_of_free hturn] at hmem
    rcases mem_search_happenings hmem with ⟨_, he⟩ | ⟨_, he⟩ <;> cases he

/-- A thread beside the main one ends once. -/
theorem Recorded.ended_unique {o' : Outcome} (h : Recorded τ m) (hne : t ≠ m.sched.main)
    (ho : .ended t o ∈ τ) (ho' : .ended t o' ∈ τ) : o' = o :=
  Option.some.inj
    (((h.outcomes t o').mpr ⟨hne, ho'⟩).symm.trans ((h.outcomes t o).mpr ⟨hne, ho⟩))

/-- Runs in which no giver panics are drained, and joins report the right thread. When the run is
over, every thread that was started beside the main one has ended and left and its outcome is
stored, the main thread has ended before it left, and nobody is live, queued or registered. And at
any moment of any such run, whatever wakeups there have been: a look of a join returns just if the
target has ended before; a join that returned did so with the one outcome with which that thread
ever ended; and a join on its way has come back, when it does, with the outcome of its target. -/
theorem Chronicle.drained_and_joined (h : Chronicle p τ m) (hids : m.sched.ids.history.Nodup) :
    (m.sched.turn = .over →
      (∀ t, .started t ∈ τ → t ≠ m.sched.main →
        ∃ o, m.outcomes.get? t = some o ∧ .ended t o ∈ τ ∧ .left t ∈ τ) ∧
      (∃ o, m.mainOutcome = some o ∧ .ended m.sched.main o ∈ τ ∧ .left m.sched.main ∈ τ) ∧
      m.sched.slots.keys = [] ∧ m.sched.ready = [] ∧ m.sched.waiters = [] ∧ m.sched.live = 0) ∧
    (∀ n me t, m.sched.turn = .held me → m.step = some n → Joins τ me t m n) ∧
    (∀ τ₁ me t o τ₂, τ = τ₁ ++ .joined me t o :: τ₂ →
      .ended t o ∈ τ₁ ∧ ∀ o', .ended t o' ∈ τ → o' = o) ∧
    (∀ n me t o, m.step = some n → .joined me t o ∈ m.happenings → n.replyOf me = .joined o) ∧
    ∀ me t ts n σ, m.stackOf me = .awaitThread t :: ts →
      Along (fun k => k.stackOf me ≠ ts) m n → Chronicle p σ n → n.sched.ids.history.Nodup →
      n.stackOf me = ts → ∃ o, n.replyOf me = .joined o ∧ .ended t o ∈ σ ∧
        ∀ o', .ended t o' ∈ σ → o' = o := by
  have hhanded := IdAllocator.nodup_history_iff.mp hids
  have hc := h.reaches.coherent hhanded
  have hrecorded := h.recorded hhanded
  have henrolled := h.reaches.enrolled hhanded
  refine ⟨fun hover => ?_, fun n me t hturn hstep =>
      hrecorded.joins (h.reaches.sound hhanded) hturn hstep,
    fun τ₁ me t o τ₂ heq => ?_, fun n me t o => replyOf_of_joined,
    fun me t ts n σ hstack hrun hσ hids' hback => ?_⟩
  · have hdead := hc.isLive_of_live_eq_zero (hc.live_of_over hover)
    have hleft : ∀ t, .started t ∈ τ → .left t ∈ τ := by
      intro t hstarted
      by_contra hleft
      exact absurd ((h.isLive_iff hhanded t).mpr ⟨hstarted, hleft⟩) (by simp [hdead t])
    refine ⟨fun t hstarted hne => ?_, ?_, slots_eq_nil hdead, ready_eq_nil hc hdead, ?_,
      hc.live_of_over hover⟩
    · obtain ⟨o, ho⟩ := hrecorded.left t hne (hleft t hstarted)
      exact ⟨o, (hrecorded.outcomes t o).mpr ⟨hne, ho⟩, ho, hleft t hstarted⟩
    · have hmain := hleft _ h.started_main
      rw [← hrecorded.main] at hmain
      obtain ⟨o, ho⟩ := Option.ne_none_iff_exists'.mp (hrecorded.left_main hmain)
      exact ⟨o, ho, hrecorded.mainOutcome o ho, hmain⟩
    · rw [List.eq_nil_iff_forall_not_mem]
      intro w hw
      exact absurd ((henrolled.sched.live w hw).symm.trans (hdead w.id)) (by simp)
  · obtain ⟨hne, hended⟩ := hrecorded.joined τ₁ me t o τ₂ heq
    exact ⟨hended, fun o' => hrecorded.ended_unique hne (heq ▸ List.mem_append_left _ hended)⟩
  · have hhanded' := IdAllocator.nodup_history_iff.mp hids'
    have hrecorded' := hσ.recorded hhanded'
    obtain ⟨o, hreply, hget⟩ := h.reaches.joined_of_returned hstack hrun hhanded' hback
    obtain ⟨hne, hended⟩ := (hrecorded'.outcomes t o).mp hget
    exact ⟨o, hreply, hended, fun o' => hrecorded'.ended_unique hne hended⟩

/-- The main thread joins the second thread while that one and the third wake it again and again,
and panics. The third thread is started by the second, panics, and is joined by nobody. -/
def family : Program :=
  { Program.blank with code :=
      [[.spawn 1, .wakeup 1, .join 2, .panic "main"], [.spawn 2, .wakeup 1, .yield],
        [.wakeup 1, .panic "third"]] }

/-- The run of `family` is over after 54 steps, and the join is the twenty-sixth thing to happen in
it. -/
theorem drained_and_joined_family :
    (family.final 54).sched.ids.history.Nodup ∧ (family.final 54).sched.turn = .over ∧
      (∃ o, (family.final 54).outcomes.get? 3 = some o ∧ .ended 3 o ∈ family.trace 54 ∧
        .left 3 ∈ family.trace 54) ∧
      (family.final 54).sched.slots.keys = [] ∧ (family.final 54).sched.live = 0 ∧
      family.trace 54 = (family.trace 54).take 25 ++
        .joined 1 2 (.finished 3) :: (family.trace 54).drop 26 ∧
      .ended 2 (.finished 3) ∈ (family.trace 54).take 25 := by
  have hids : (family.final 54).sched.ids.history.Nodup := by decide
  have hover : (family.final 54).sched.turn = .over := by decide
  have hsplit : family.trace 54 = (family.trace 54).take 25 ++
      .joined 1 2 (.finished 3) :: (family.trace 54).drop 26 := by decide
  obtain ⟨hdrained, -, hjoined, -⟩ := (chronicle_final 54 family).drained_and_joined hids
  obtain ⟨hstored, -, hslots, -, -, hlive⟩ := hdrained hover
  exact ⟨hids, hover, hstored 3 (by decide) (by decide), hslots, hlive, hsplit,
    (hjoined _ 1 2 (.finished 3) _ hsplit).1⟩

end Machine

end Baton
