import Baton.Proofs.Sched.Turns

/-!
# Scheduler: the line of ready threads

The ready queue is a line: whoever becomes runnable joins it at its end, and only its head is given
the turn. A thread in the line therefore gets the turn after exactly those that stood before it,
each once and in the order of the line, whoever joins behind it meanwhile.
-/

namespace Baton

namespace Sched

variable {s s' s'' : Sched} {me t : ThreadId} {ahead done : List ThreadId}

theorem Coherent.nodup_ready (h : s.Coherent) : s.ready.Nodup := by
  refine List.nodup_iff_count_le_one.mpr fun t => ?_
  rw [h.count_ready t]
  split <;> omega

theorem Coherent.mem_ready_iff (h : s.Coherent) (t : ThreadId) :
    t ∈ s.ready ↔ s.isRunnable t = true := by
  rw [← List.count_pos_iff, h.count_ready t]
  split <;> simp_all

/-! ## Joining the line -/

/-- Threads may have joined the line at its end, and nobody has been dispatched. -/
structure Joined (s s' : Sched) : Prop where
  ready : s.ready <+: s'.ready
  dispatched : s'.dispatched = s.dispatched

theorem Joined.refl (s : Sched) : Joined s s := ⟨List.prefix_rfl, rfl⟩

theorem Joined.trans (h : Joined s s') (h' : Joined s' s'') : Joined s s'' :=
  ⟨h.ready.trans h'.ready, h'.dispatched.trans h.dispatched⟩

theorem SameRun.joined (h : SameRun s s') : Joined s s' :=
  ⟨h.ready ▸ List.prefix_rfl, h.dispatched⟩

theorem joined_wakeup (id : ThreadId) (s : Sched) : Joined s (s.wakeup id) :=
  ⟨ready_wakeup id s ▸ List.prefix_append _ _, dispatched_wakeup id s⟩

theorem Quiet.joined (h : Quiet s s') : Joined s s' := by
  induction h with
  | refl => exact .refl _
  | same _ hs ih => exact ih.trans hs.joined
  | wakeup id _ ih => exact ih.trans (joined_wakeup id _)

theorem Quiet.isRunning (h : Quiet s s') (t : ThreadId) : s'.isRunning t = s.isRunning t := by
  induction h with
  | refl => rfl
  | same _ hs ih => rw [← ih, isRunning_eq, isRunning_eq, hs.standing]
  | wakeup id _ ih => simpa using ih

/-- Nothing that the running thread does moves the line or dispatches anybody. -/
theorem Moves.joined (h : Moves me s s') : Joined s s' := by
  cases h with
  | quiet hq => exact hq.joined
  | stop =>
      unfold Sched.stop
      dsimp only
      split <;> exact ⟨List.prefix_rfl, rfl⟩
  | yieldNow | spawn => exact ⟨List.prefix_append _ _, rfl⟩
  | @finish told hq =>
      have hretired : Joined told (told.retire me (.seeking me)) := ⟨List.prefix_rfl, rfl⟩
      exact (hq.joined.trans hretired).trans (quiet_retire_finish me told).joined
  | conclude => exact ⟨List.prefix_rfl, rfl⟩

theorem settleIdle_line (giver : ThreadId) (woken : Bool) (s : Sched) :
    Joined s (s.settleIdle giver woken) ∧ (s.settleIdle giver woken).turn.IsFree := by
  unfold settleIdle
  split
  · exact ⟨⟨List.prefix_rfl, rfl⟩, by simp [Turn.IsFree]⟩
  · dsimp only
    split <;> exact ⟨⟨List.prefix_rfl, rfl⟩, by simp [Turn.IsFree]⟩

/-- The head of the line is dispatched. -/
theorem Coherent.dispatches_head {u : ThreadId} {rest : List ThreadId} (h : s.Coherent)
    (giver : ThreadId) (hfree : s.turn.IsFree) (hready : s.ready = u :: rest) :
    (s.choose giver).ready = rest ∧ (s.choose giver).dispatched = u :: s.dispatched ∧
      (s.choose giver).isRunning u = true := by
  have hrunnable := h.isRunnable_head hready
  have hchoose : s.choose giver = Sched.dispatch giver u { s with ready := rest } := by
    rw [Sched.choose, hready]
    exact if_pos hrunnable
  have hstanding : Restands u (some (.running, decide (giver ≠ u))) s (s.choose giver) :=
    hchoose ▸ restands_dispatch (isLive_of_isRunnable hrunnable)
      (h.hasBaton_eq_false hfree.1 u)
  refine ⟨?_, ?_, ?_⟩
  · rw [hchoose, (dispatch_frame giver u _).1]
  · rw [hchoose, dispatched_dispatch]
  · rw [isRunning_eq, hstanding u, if_pos rfl]
    rfl

/-- A step of the search leaves the line alone but for those who join it, and lets a thread run only
if the baton lies ready for it; or it dispatches the head of the line. -/
theorem Coherent.search_cases {system : PollSystem Descriptor} (h : s.Coherent)
    (hs : s.search system = some s') :
    (Joined s s' ∧ s'.turn ≠ .passing ∧ ∀ t, s'.turn = .held t ↔ s.isRunning t = true) ∨
    ((∀ t, s.isRunning t = false) ∧ ∃ u, s.ready = u :: s'.ready ∧
      s'.dispatched = u :: s.dispatched ∧ s'.isRunning u = true) := by
  have hfree : s.turn.IsFree → s'.turn.IsFree →
      s'.turn ≠ .passing ∧ ∀ t, s'.turn = .held t ↔ s.isRunning t = true :=
    fun hfree hfree' => ⟨hfree'.1, fun t => iff_of_false (hfree'.2 t)
      (by simp [h.isRunning_eq_false hfree t])⟩
  have hpolled : ∀ longest, Joined s (s.serveWaiters system longest).2 := fun longest =>
    (quiet_serveWaiters system longest s).joined
  cases Sched.search_cases hs with
  | poll hturn =>
      exact .inl ⟨⟨(hpolled .zero).ready, (hpolled .zero).dispatched⟩,
        hfree (by simp [hturn, Turn.IsFree]) (by simp [Turn.IsFree])⟩
  | @choose giver hturn =>
      have hchoosing : s.turn.IsFree := by simp [hturn, Turn.IsFree]
      cases hready : s.ready with
      | nil =>
          have hidle : s.choose giver = { s with turn := .idle giver } := by
            rw [Sched.choose, hready]
          have hsame : Joined s (s.choose giver) := by
            rw [hidle]
            exact ⟨List.prefix_rfl, rfl⟩
          exact .inl ⟨hsame, hfree hchoosing (by simp [hidle, Turn.IsFree])⟩
      | cons u rest =>
          obtain ⟨hrest, hdispatched, hrun⟩ := h.dispatches_head giver hchoosing hready
          exact .inr ⟨h.isRunning_eq_false hchoosing, u, by rw [hrest], hdispatched, hrun⟩
  | rest hturn =>
      exact .inl ⟨(hpolled s.idlePoll).trans (settleIdle_line ..).1,
        hfree (by simp [hturn, Turn.IsFree]) (settleIdle_line ..).2⟩
  | revive hturn =>
      exact .inl ⟨⟨List.prefix_rfl, rfl⟩,
        hfree (by simp [hturn, Turn.IsFree]) (by simp [Turn.IsFree])⟩
  | takeUp hturn htake =>
      obtain ⟨id, hfind, rfl⟩ := Option.map_eq_some_iff.mp htake
      have hid : s.hasBaton id = true := by simpa using List.find?_some hfind
      refine .inl ⟨⟨List.prefix_rfl, rfl⟩, by simp, fun t => ⟨fun ht => ?_, fun hrun => ?_⟩⟩
      · exact (h.running_iff t).mpr (.inr (Turn.held.inj ht ▸ hid))
      · -- The baton lies ready for one thread only.
        obtain ⟨u, -, honly⟩ := h.baton_of_passing hturn
        have ht : s.hasBaton t = true := ((h.running_iff t).mp hrun).resolve_left (by simp [hturn])
        exact congrArg Turn.held ((honly id hid).trans (honly t ht).symm)

/-! ## Who runs -/

/-- The running thread is the one dispatched last, or the first one if none has been dispatched. -/
def RunsLast (s : Sched) : Prop := ∀ t, s.isRunning t = true → s.dispatched.headD .first = t

theorem Coherent.eq_of_isRunning {u : ThreadId} (h : s.Coherent) (ht : s.isRunning t = true)
    (hu : s.isRunning u = true) : t = u := by
  rcases (h.running_iff t).mp ht with ht | ht <;> rcases (h.running_iff u).mp hu with hu | hu
  · exact Turn.held.inj (ht.symm.trans hu)
  · cases (h.passing_of_baton u hu).symm.trans ht
  · cases (h.passing_of_baton t ht).symm.trans hu
  · obtain ⟨v, -, honly⟩ := h.baton_of_passing (h.passing_of_baton t ht)
    exact (honly t ht).trans (honly u hu).symm

theorem RunsLast.quiet (h : s.RunsLast) (hq : Quiet s s') : s'.RunsLast := by
  intro t hrun
  rw [hq.joined.dispatched]
  exact h t ((hq.isRunning t).symm.trans hrun)

theorem RunsLast.moves (h : s.RunsLast) (hc : s'.Coherent) (hturn : s.turn = .held me)
    (hme : s.isRunning me = true) (hm : Moves me s s') : s'.RunsLast := by
  intro t hrun
  rw [hm.joined.dispatched]
  rcases hm.turn_eq_or_isFree with hsame | hfree
  · have ht : t = me := by
      by_contra hne
      exact absurd (hc.isRunning_other (hsame.trans hturn) hne) (by simp [hrun])
    exact h t (ht ▸ hme)
  · exact absurd (hc.isRunning_eq_false hfree t) (by simp [hrun])

theorem RunsLast.search {system : PollSystem Descriptor} (h : s.RunsLast) (hc : s.Coherent)
    (hs : s.search system = some s') : s'.RunsLast := by
  intro t hrun
  have hc' := hc.search hs
  rcases hc.search_cases hs with ⟨hj, hpassing, hturn⟩ | ⟨-, u, -, hdispatched, hu⟩
  · have ht : s'.turn = .held t := ((hc'.running_iff t).mp hrun).resolve_right fun hb =>
      hpassing (hc'.passing_of_baton t hb)
    rw [hj.dispatched]
    exact h t ((hturn t).mp ht)
  · rw [hdispatched]
    exact hc'.eq_of_isRunning hu hrun

/-! ## Standing in the line -/

/-- Where `t` is that stood in the line behind `ahead` when `done` had been dispatched. -/
inductive InLine (t : ThreadId) (ahead done : List ThreadId) (s : Sched) : Prop where
  /-- Those in `gone` have had the turn. -/
  | waits (gone left behind : List ThreadId) : ahead = gone ++ left →
      s.ready = left ++ t :: behind → s.dispatched = gone.reverse ++ done → InLine t ahead done s
  | served : s.isRunning t = true → s.dispatched = t :: (ahead.reverse ++ done) →
      InLine t ahead done s

/-- A thread that yields goes to the end of the line. -/
theorem inLine_yieldNow (t : ThreadId) (s : Sched) :
    InLine t s.ready s.dispatched (s.yieldNow t) :=
  .waits [] s.ready [] rfl rfl rfl

theorem InLine.joined (h : InLine t ahead done s) (hj : Joined s s')
    (hrun : s.isRunning t = true → s'.isRunning t = true) : InLine t ahead done s' := by
  cases h with
  | waits gone left behind hahead hready hdispatched =>
      obtain ⟨new, hnew⟩ := hj.ready
      refine .waits gone left (behind ++ new) hahead ?_ (hj.dispatched.trans hdispatched)
      rw [← hnew, hready, List.append_assoc]
      rfl
  | served hr hdispatched => exact .served (hrun hr) (hj.dispatched.trans hdispatched)

theorem InLine.quiet (h : InLine t ahead done s) (hq : Quiet s s') : InLine t ahead done s' :=
  h.joined hq.joined fun hrun => (hq.isRunning t).trans hrun

/-- Another thread runs. -/
theorem InLine.moves (h : InLine t ahead done s) (hc : s.Coherent) (hturn : s.turn = .held me)
    (hne : t ≠ me) (hm : Moves me s s') : InLine t ahead done s' :=
  h.joined hm.joined fun hrun => absurd (hc.isRunning_other hturn hne) (by simp [hrun])

/-- The search goes through the line from its head. -/
theorem InLine.search {system : PollSystem Descriptor} (h : InLine t ahead done s)
    (hc : s.Coherent) (hs : s.search system = some s') : InLine t ahead done s' := by
  rcases hc.search_cases hs with ⟨hj, -, hturn⟩ | ⟨hnobody, u, hready, hdispatched, hrun⟩
  · exact h.joined hj fun hrun => (hc.search hs).isRunning_of_held ((hturn t).mpr hrun)
  cases h with
  | waits gone left behind hahead hline hdone =>
      rw [hready] at hline
      cases left with
      | nil =>
          obtain ⟨rfl, -⟩ := List.cons.inj hline
          refine .served hrun ?_
          rw [hdispatched, hdone, hahead, List.append_nil]
      | cons v left =>
          obtain ⟨rfl, hrest⟩ := List.cons.inj hline
          refine .waits (gone ++ [u]) left behind (by simp [hahead]) hrest ?_
          rw [hdispatched, hdone]
          simp
  | served hr => exact absurd (hnobody t) (by simp [hr])

theorem InLine.isLive (h : InLine t ahead done s) (hc : s.Coherent) : s.isLive t = true := by
  cases h with
  | waits gone left behind _ hready =>
      refine isLive_of_isRunnable ((hc.mem_ready_iff t).mp ?_)
      rw [hready]
      exact List.mem_append_right left List.mem_cons_self
  | served hrun => exact isLive_of_isRunning hrun

/-- While a thread stands in the line it does not run. -/
theorem InLine.dispatched_of_isRunning (h : InLine t ahead done s) (hc : s.Coherent)
    (hrun : s.isRunning t = true) : s.dispatched = t :: (ahead.reverse ++ done) := by
  cases h with
  | waits gone left behind _ hready =>
      have hcount := hc.count_ready t
      rw [isRunnable_eq_false_of_isRunning hrun, hready] at hcount
      simp at hcount
  | served _ hdispatched => exact hdispatched

/-- Only those ahead of it are dispatched before it. -/
theorem InLine.exists_dispatched (h : InLine t ahead done s) :
    ∃ us, us <+: ahead ++ [t] ∧ s.dispatched = us.reverse ++ done := by
  cases h with
  | waits gone left _ hahead _ hdispatched =>
      refine ⟨gone, ?_, hdispatched⟩
      rw [hahead, List.append_assoc]
      exact List.prefix_append _ _
  | served _ hdispatched => exact ⟨ahead ++ [t], List.prefix_rfl, by simp [hdispatched]⟩

end Sched

end Baton
