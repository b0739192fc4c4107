import Baton.Proofs.Sched.Coherent

/-!
# Scheduler: moves of the turn

The running thread gives the turn away by stopping, yielding or finishing, and the search for the
next thread hands it on. Each of these keeps the scheduler coherent. New threads need new
identities, so a spawn keeps it as long as the numbers are not used up.

## Implementation notes

A move of the turn changes the standing of one thread while no other thread runs. What such a change
has to respect is the same for all moves (`Coherent.restands`): the counter, the queue and the turn
must fit the new standing.
-/

namespace Baton

/-- Under this turn no thread runs: somebody looks for the next one, or the run is over. -/
def Turn.IsFree (turn : Turn) : Prop := turn ≠ .passing ∧ ∀ t, turn ≠ .held t

/-- Whether the turn fits a thread `id` with standing `x` while no other thread runs. -/
def Turn.Fits (id : ThreadId) (x : Option (RunState × Bool)) : Turn → Prop
  | .held t => t = id ∧ x = some (.running, false)
  | .passing => x = some (.running, true)
  | _ => x.any (fun y => y.1 == .running) = false ∧ x.any (·.2) = false

theorem Turn.IsFree.fits {turn : Turn} {id : ThreadId} {x : Option (RunState × Bool)}
    (h : turn.IsFree) (hrun : x.any (fun y => y.1 == .running) = false)
    (hbaton : x.any (·.2) = false) : turn.Fits id x := by
  cases turn with
  | held t => exact absurd rfl (h.2 t)
  | passing => exact absurd rfl h.1
  | _ => exact ⟨hrun, hbaton⟩

namespace Sched

variable {s s' : Sched} {me t id : ThreadId} {turn : Turn} {x : Option (RunState × Bool)}

theorem Coherent.isRunning_eq_false (h : s.Coherent) (hfree : s.turn.IsFree) (t : ThreadId) :
    s.isRunning t = false := by
  by_contra hrun
  rcases (h.running_iff t).mp (by simpa using hrun) with ht | hb
  · exact hfree.2 t ht
  · exact hfree.1 (h.passing_of_baton t hb)

/-- Beside the thread that has the turn nobody runs. -/
theorem Coherent.isRunning_other (h : s.Coherent) (ht : s.turn = .held me) (hne : t ≠ me) :
    s.isRunning t = false := by
  by_contra hrun
  rcases (h.running_iff t).mp (by simpa using hrun) with hheld | hb
  · exact hne (Turn.held.inj (ht.symm.trans hheld)).symm
  · exact absurd (h.passing_of_baton t hb) (by simp [ht])

/-- Whoever has no baton and does not hold the turn does not run. -/
theorem Coherent.hasBaton_of_not_running (h : s.Coherent) (hrun : s.isRunning t = false) :
    s.hasBaton t = false := by
  by_contra hb
  rw [(h.running_iff t).mpr (.inr (by simpa using hb))] at hrun
  cases hrun

/-- While nobody runs, the turn may go to any other searcher. -/
theorem Coherent.withTurn (h : s.Coherent) (hold : s.turn.IsFree) (hnew : turn.IsFree)
    (hgoing : turn ≠ .over) : Coherent { s with turn } where
  census := h.census
  issued := h.issued
  count_ready := h.count_ready
  running_iff t := by
    have hrun : ¬ s.isRunning t = true := by simp [h.isRunning_eq_false hold t]
    have hbaton : ¬ s.hasBaton t = true := by simp [h.hasBaton_eq_false hold.1 t]
    exact ⟨fun hr => absurd hr hrun, fun ht => absurd ht (not_or.mpr ⟨hnew.2 t, hbaton⟩)⟩
  passing_of_baton t hb := absurd (h.passing_of_baton t hb) hold.1
  baton_of_passing ht := absurd ht hnew.1
  history := h.history
  no_stale := h.no_stale
  live_of_over ht := absurd ht hgoing

/-! ## A thread with another standing -/

/-- The counter follows the one thread that may have come or gone. -/
theorem Census.restands (h : s.Census) (hx : Restands id x s s')
    (hlive : s'.live + (if s.isLive id then 1 else 0) = s.live + if x.isSome then 1 else 0) :
    s'.Census := by
  obtain ⟨ts, hnodup, hmem, hlen⟩ := h
  have hothers : ∀ t, t ∈ ts.erase id ↔ t ≠ id ∧ s.isLive t = true := by
    intro t
    rw [hnodup.mem_erase_iff, hmem]
  have hcount : (ts.erase id).length + (if s.isLive id then 1 else 0) = s.live := by
    by_cases hin : id ∈ ts
    · have hpos := List.length_pos_of_mem hin
      rw [List.length_erase_of_mem hin, if_pos ((hmem id).mp hin)]
      omega
    · rw [List.erase_of_not_mem hin, if_neg (fun hl => hin ((hmem id).mpr hl))]
      exact hlen
  cases hsome : x.isSome with
  | false =>
      refine ⟨ts.erase id, hnodup.erase id, fun t => ?_, by simp [hsome] at hlive; omega⟩
      rw [hothers, hx.isLive, hsome]
      by_cases he : t = id <;> simp [he]
  | true =>
      have hnot : id ∉ ts.erase id := fun hin => ((hothers id).mp hin).1 rfl
      refine ⟨id :: ts.erase id, List.nodup_cons.mpr ⟨hnot, hnodup.erase id⟩, fun t => ?_, ?_⟩
      · rw [List.mem_cons, hothers, hx.isLive, hsome]
        by_cases he : t = id <;> simp [he]
      · rw [List.length_cons]
        simp [hsome] at hlive
        omega

/-- The queue follows the one thread that may have become runnable or been taken off. -/
theorem Coherent.count_ready_restands (h : s.Coherent) (hx : Restands id x s s')
    (hme : s'.ready.count id = if x.any (fun y => y.1 == .runnable) then 1 else 0)
    (hothers : ∀ t, t ≠ id → s'.ready.count t = s.ready.count t) (t : ThreadId) :
    s'.ready.count t = if s'.isRunnable t then 1 else 0 := by
  rw [hx.isRunnable]
  by_cases he : t = id
  · rw [he, if_pos rfl, hme]
  · rw [hothers t he, h.count_ready, if_neg he]

/-- A live thread gets another standing while nobody else runs. -/
theorem Coherent.restands (h : s.Coherent) (hx : Restands id x s s') (hid : s.isLive id = true)
    (halone : ∀ t, t ≠ id → s.isRunning t = false) (hturn : s'.turn.Fits id x)
    (hids : s'.ids = s.ids) (hlive : s'.live + 1 = s.live + if x.isSome then 1 else 0)
    (hme : s'.ready.count id = if x.any (fun y => y.1 == .runnable) then 1 else 0)
    (hothers : ∀ t, t ≠ id → s'.ready.count t = s.ready.count t)
    (hhistory : s'.entered.reverse = s'.dispatched.reverse ++ s'.ready)
    (hstale : ∀ t, Notice.stale t ∈ s'.journal → Notice.stale t ∈ s.journal)
    (hover : s'.turn = .over → s'.live = 0) : s'.Coherent := by
  have hrun : ∀ t, s'.isRunning t = true ↔ t = id ∧ x.any (fun y => y.1 == .running) = true := by
    intro t
    rw [hx.isRunning]
    by_cases he : t = id
    · simp [he]
    · simp [he, halone t he]
  have hbaton : ∀ t, s'.hasBaton t = true ↔ t = id ∧ x.any (·.2) = true := by
    intro t
    rw [hx.hasBaton]
    by_cases he : t = id
    · simp [he]
    · simp [he, h.hasBaton_of_not_running (halone t he)]
  refine {
    census := h.census.restands hx (by rw [if_pos hid, hlive])
    issued := fun t hl => ?_
    count_ready := h.count_ready_restands hx hme hothers
    running_iff := fun t => ?_
    passing_of_baton := fun t hb => ?_
    baton_of_passing := fun hp => ?_
    history := hhistory
    no_stale := fun t hst => h.no_stale t (hstale t hst)
    live_of_over := hover }
  · rw [hids]
    rw [hx.isLive] at hl
    split at hl
    · rename_i he
      exact he ▸ h.issued id hid
    · exact h.issued t hl
  · rw [hrun, hbaton]
    cases hnew : s'.turn with
    | held u =>
        obtain ⟨rfl, rfl⟩ : u = id ∧ x = _ := by simpa [hnew, Turn.Fits] using hturn
        simp [eq_comm]
    | passing =>
        obtain rfl : x = _ := by simpa [hnew, Turn.Fits] using hturn
        simp
    | _ =>
        obtain ⟨hstands, hempty⟩ : _ ∧ _ := by simpa only [hnew, Turn.Fits] using hturn
        simp [hstands, hempty]
  · have hlies := ((hbaton t).mp hb).2
    cases hnew : s'.turn with
    | held u =>
        obtain ⟨-, rfl⟩ : u = id ∧ x = _ := by simpa [hnew, Turn.Fits] using hturn
        cases hlies
    | passing => rfl
    | _ =>
        obtain ⟨-, hempty⟩ : _ ∧ _ := by simpa only [hnew, Turn.Fits] using hturn
        exact absurd (hempty.symm.trans hlies) (by simp)
  · obtain rfl : x = _ := by simpa [hp, Turn.Fits] using hturn
    exact ⟨id, (hbaton id).mpr ⟨rfl, rfl⟩, fun u hu => ((hbaton u).mp hu).1⟩

/-- The running thread stops running, and becomes `x`: stopped, runnable, or gone. -/
theorem Coherent.depart (h : s.Coherent) (ht : s.turn = .held me) (hx : Restands me x s s')
    (hturn : s'.turn.Fits me x) (hover : s'.turn = .over → s'.live = 0) (hids : s'.ids = s.ids)
    (hlive : s'.live + 1 = s.live + if x.isSome then 1 else 0)
    (hready : s'.ready = s.ready ++ if x.any (fun y => y.1 == .runnable) then [me] else [])
    (hentered : s'.entered =
      (if x.any (fun y => y.1 == .runnable) then [me] else []) ++ s.entered)
    (hdispatched : s'.dispatched = s.dispatched)
    (hstale : ∀ t, Notice.stale t ∈ s'.journal → Notice.stale t ∈ s.journal) : s'.Coherent := by
  have hme := h.isRunning_of_held ht
  have hnone : s.ready.count me = 0 := by
    rw [h.count_ready, isRunnable_eq_false_of_isRunning hme]
    rfl
  refine h.restands hx (isLive_of_isRunning hme) (fun t hne => h.isRunning_other ht hne) hturn hids
    hlive ?_ (fun t hne => ?_) ?_ hstale hover
  · rw [hready, List.count_append, hnone]
    cases x.any fun y => y.1 == .runnable <;> simp
  · have hne' : (me == t) = false := by simpa using Ne.symm hne
    rw [hready, List.count_append]
    cases x.any fun y => y.1 == .runnable <;> simp [List.count_singleton, hne']
  · rw [hentered, hdispatched, hready]
    cases x.any fun y => y.1 == .runnable <;> simp [h.history]

/-! ## Stopping, yielding and leaving -/

/-- The slot of the running thread. -/
theorem Coherent.exists_slot (h : s.Coherent) (ht : s.turn = .held me) :
    ∃ slot, s.slots.get? me = some slot ∧ slot.status.state = .running ∧ slot.baton = false := by
  have hrun := h.isRunning_of_held ht
  have hbaton := h.hasBaton_eq_false (by simp [ht]) me
  cases hslot : s.slots.get? me with
  | none => simp [isRunning, hslot] at hrun
  | some slot => exact ⟨slot, rfl, by simpa [isRunning, hslot] using hrun,
      by simpa [hasBaton, hslot] using hbaton⟩

theorem Coherent.stop (h : s.Coherent) (ht : s.turn = .held me) : (s.stop me).Coherent := by
  obtain ⟨slot, hslot, hstate, hbaton⟩ := h.exists_slot ht
  by_cases hn : slot.status.notified = true
  · -- A remembered wakeup is consumed, and the thread goes on.
    have hstop : slot.status.stop = ⟨.running, false⟩ := by simp [Status.stop, hn, hstate]
    have hstay : s.stop me = s.onStatus me Status.stop := by
      simp [Sched.stop, isStopped, onStatus, hslot, hstop, Status.isStopped]
    rw [hstay]
    refine h.sameRun (sameRun_onSlot fun x hget => ?_)
    rw [hslot] at hget
    cases hget
    exact ⟨by simp [hstop, hstate], rfl⟩
  · have hstop : slot.status.stop = ⟨.stopped, false⟩ := by simp [Status.stop, hn]
    have hgo : s.stop me = { s.onStatus me Status.stop with turn := .seeking me } := by
      simp [Sched.stop, isStopped, onStatus, hslot, hstop, Status.isStopped]
    have hx : Restands me (some (.stopped, false)) s (s.stop me) := by
      have := restands_onSlot me (fun x => { x with status := x.status.stop }) s
      rw [hslot, Option.map_some, hstop, hbaton] at this
      rw [hgo]
      exact this
    refine h.depart ht hx ?_ ?_ ?_ ?_ ?_ ?_ ?_ ?_ <;> rw [hgo]
    · exact ⟨rfl, rfl⟩
    · simp
    · rfl
    · rfl
    · simp [onStatus, onSlot]
    · simp [onStatus, onSlot]
    · rfl
    · exact fun _ => id

theorem Coherent.yieldNow (h : s.Coherent) (ht : s.turn = .held me) :
    (s.yieldNow me).Coherent := by
  obtain ⟨slot, hslot, -, hbaton⟩ := h.exists_slot ht
  have hx : Restands me (some (.runnable, false)) s (s.yieldNow me) := by
    have := restands_onSlot me (fun x => { x with status := x.status.enter .runnable }) s
    rw [hslot, Option.map_some, hbaton] at this
    exact this
  exact h.depart ht hx ⟨rfl, rfl⟩ (by simp [Sched.yieldNow]) rfl rfl rfl rfl rfl fun _ => id

theorem Coherent.retire (h : s.Coherent) (ht : s.turn = .held me) (hturn : turn.IsFree)
    (hover : turn = .over → s.live - 1 = 0) : (s.retire me turn).Coherent := by
  have hpos := h.live_pos (isLive_of_isRunning (h.isRunning_of_held ht))
  have hlive : s.live - 1 + 1 = s.live := Nat.sub_add_cancel hpos
  exact h.depart ht (restands_retire me turn s) (hturn.fits rfl rfl) hover rfl hlive
    (List.append_nil _).symm rfl rfl fun _ => id

theorem quiet_retire_finish (me : ThreadId) (s : Sched) :
    Quiet (s.retire me (.seeking me)) (s.finish me) :=
  (Quiet.refl _).wakeAll _

theorem Coherent.finish (h : s.Coherent) (ht : s.turn = .held me) : (s.finish me).Coherent :=
  (quiet_retire_finish me s).coherent (h.retire ht (by simp [Turn.IsFree]) (by simp))

theorem Coherent.conclude (h : s.Coherent) (ht : s.turn = .held me) (hlast : s.live ≤ 1) :
    (s.conclude me).Coherent :=
  (h.retire ht (by simp [Turn.IsFree]) fun _ => Nat.sub_eq_zero_of_le hlast).sameRun
    (sameRun_note (by simp))

/-! ## New threads -/

theorem restands_spawn (s : Sched) :
    Restands s.ids.next (some (.runnable, false)) s s.spawn.2 := by
  intro t
  show ((s.slots.set s.ids.next ⟨⟨.runnable, false⟩, false, [], none⟩).get? t).map _ = _
  rw [Store.get?_set]
  split <;> rfl

/-- The next identity is nobody's as long as the numbers last. -/
theorem Coherent.isLive_next (h : s.Coherent) (hids : s.ids.handed < UInt64.size) :
    s.isLive s.ids.next = false := by
  by_contra hl
  exact IdAllocator.not_issued_next hids (h.issued _ (by simpa using hl))

theorem Coherent.spawn (h : s.Coherent) (ht : s.turn = .held me)
    (hids : s.ids.handed < UInt64.size) : s.spawn.2.Coherent := by
  have hnew := h.isLive_next hids
  have hx := restands_spawn s
  have hnotrun : s.isRunning s.ids.next = false := by
    by_contra hr
    rw [isLive_of_isRunning (by simpa using hr)] at hnew
    cases hnew
  have hidle : s.ready.count s.ids.next = 0 := by
    rw [h.count_ready, if_neg]
    intro hr
    rw [isLive_of_isRunnable hr] at hnew
    cases hnew
  have hrunning : ∀ t, s.spawn.2.isRunning t = s.isRunning t := by
    intro t
    rw [hx.isRunning]
    by_cases he : t = s.ids.next <;> simp [he, hnotrun]
  have hbaton : ∀ t, s.spawn.2.hasBaton t = s.hasBaton t := by
    intro t
    rw [hx.hasBaton]
    by_cases he : t = s.ids.next <;> simp [he, h.hasBaton_of_not_running hnotrun]
  have hturn : s.spawn.2.turn = s.turn := rfl
  exact {
    census := h.census.restands hx (by rw [hnew]; rfl)
    issued := by
      intro t hl
      rw [hx.isLive] at hl
      apply IdAllocator.issued_allocate_iff.mpr
      split at hl
      · exact .inr ‹_›
      · exact .inl (h.issued t hl)
    count_ready := by
      apply h.count_ready_restands hx
      · show (s.ready ++ [s.ids.next]).count s.ids.next = 1
        simp [hidle]
      · intro t he
        show (s.ready ++ [s.ids.next]).count t = _
        simp [Ne.symm he]
    running_iff := by simpa only [hrunning, hbaton, hturn] using h.running_iff
    passing_of_baton := by simpa only [hbaton, hturn] using h.passing_of_baton
    baton_of_passing := by simpa only [hbaton, hturn] using h.baton_of_passing
    history := by
      show (s.ids.next :: s.entered).reverse = s.dispatched.reverse ++ (s.ready ++ [s.ids.next])
      simp [h.history]
    no_stale := fun t hst => h.no_stale t ((List.mem_cons.mp hst).resolve_left (by simp))
    live_of_over := fun ho => absurd (ht.symm.trans ho) (by simp) }

/-! ## The search for the next thread -/

/-- The dispatched thread runs, and the baton lies ready for it unless it is the giver itself. -/
theorem restands_dispatch {giver : ThreadId} (hlive : s.isLive id = true)
    (hbaton : s.hasBaton id = false) :
    Restands id (some (.running, decide (giver ≠ id))) s (s.dispatch giver id) := by
  intro t
  rw [isLive, Option.isSome_iff_exists] at hlive
  obtain ⟨slot, hslot⟩ := hlive
  have hslotbaton : slot.baton = false := by simpa [hasBaton, hslot] using hbaton
  have hget : ∀ u, (s.onStatus id (Status.enter .running)).slots.get? u =
      if u = id then some { slot with status := slot.status.enter .running }
      else s.slots.get? u := by
    intro u
    simp [onStatus, hslot]
  unfold dispatch standing
  by_cases hg : giver = id
  · rw [if_pos hg]
    show ((s.onStatus id (Status.enter .running)).slots.get? t).map _ = _
    rw [hget]
    by_cases he : t = id <;> simp [he, hg, hslotbaton, Status.enter]
  · rw [if_neg hg]
    show (((s.onStatus id (Status.enter .running)).slots.modify id fun slot =>
      { slot with baton := true }).get? t).map _ = _
    rw [Store.get?_modify, hget, hget]
    by_cases he : t = id <;> simp [he, hg, Status.enter]

theorem turn_dispatch (giver next : ThreadId) (s : Sched) :
    (s.dispatch giver next).turn = if giver = next then .held next else .passing := by
  unfold dispatch
  split <;> rfl

theorem journal_dispatch (giver next : ThreadId) (s : Sched) :
    (s.dispatch giver next).journal =
      (if giver = next then [] else [.switched giver next]) ++ s.journal := by
  unfold dispatch
  split <;> rfl

theorem dispatched_dispatch (giver next : ThreadId) (s : Sched) :
    (s.dispatch giver next).dispatched = next :: s.dispatched := by
  unfold dispatch
  split <;> rfl

/-- A dispatch leaves the queue, the record of entries, the census and the identities alone. -/
theorem dispatch_frame (giver next : ThreadId) (s : Sched) :
    (s.dispatch giver next).ready = s.ready ∧ (s.dispatch giver next).entered = s.entered ∧
      (s.dispatch giver next).live = s.live ∧ (s.dispatch giver next).ids = s.ids := by
  unfold dispatch
  split <;> exact ⟨rfl, rfl, rfl, rfl⟩

theorem Coherent.isRunnable_head {rest : List ThreadId} (h : s.Coherent)
    (hready : s.ready = id :: rest) : s.isRunnable id = true := by
  have hcount := h.count_ready id
  rw [hready, List.count_cons_self] at hcount
  by_contra hr
  rw [if_neg hr] at hcount
  omega

theorem Coherent.dispatch {giver : ThreadId} {rest : List ThreadId} (h : s.Coherent)
    (hfree : s.turn.IsFree) (hready : s.ready = id :: rest) :
    (Sched.dispatch giver id { s with ready := rest }).Coherent := by
  have hrunnable := h.isRunnable_head hready
  have hlive := isLive_of_isRunnable hrunnable
  have hx : Restands id (some (.running, decide (giver ≠ id))) s
      (Sched.dispatch giver id { s with ready := rest }) :=
    restands_dispatch hlive (h.hasBaton_eq_false hfree.1 id)
  have hturn := turn_dispatch giver id { s with ready := rest }
  have hjournal := journal_dispatch giver id { s with ready := rest }
  have hdispatched := dispatched_dispatch giver id { s with ready := rest }
  obtain ⟨hrest, hentered, hcensus, hids⟩ := dispatch_frame giver id { s with ready := rest }
  have hcount : ∀ t, rest.count t + (if id = t then 1 else 0) = s.ready.count t := by
    intro t
    rw [hready, List.count_cons]
    simp
  apply h.restands hx hlive (fun t _ => h.isRunning_eq_false hfree t)
  · rw [hturn]
    by_cases hg : giver = id <;> simp [hg, Turn.Fits]
  · exact hids
  · rw [hcensus]
    rfl
  · have hme := hcount id
    rw [h.count_ready, hrunnable] at hme
    rw [hrest]
    simpa using hme
  · intro t he
    rw [hrest]
    simpa [Ne.symm he] using hcount t
  · simp [hentered, hdispatched, hrest, h.history, hready]
  · intro t hst
    rw [hjournal] at hst
    apply (List.mem_append.mp hst).resolve_left
    split <;> simp
  · intro hover
    rw [hturn] at hover
    split at hover <;> cases hover

theorem Coherent.choose {giver : ThreadId} (h : s.Coherent) (hfree : s.turn.IsFree) :
    (s.choose giver).Coherent := by
  unfold Sched.choose
  split
  · exact h.withTurn hfree (by simp [Turn.IsFree]) (by simp)
  · rename_i id rest hready
    have hrunnable : isRunnable id { s with ready := rest } = true := h.isRunnable_head hready
    simp only [hrunnable, ↓reduceIte]
    exact h.dispatch hfree hready

theorem Coherent.settleIdle {giver : ThreadId} {woken : Bool} (h : s.Coherent)
    (hfree : s.turn.IsFree) : (s.settleIdle giver woken).Coherent := by
  unfold Sched.settleIdle
  split
  · exact h.withTurn hfree (by simp [Turn.IsFree]) (by simp)
  · dsimp only
    split
    · exact h.withTurn hfree (by simp [Turn.IsFree]) (by simp)
    · have hwarned : SameRun (s.note .stuck) { s.note .stuck with warned := true } :=
        { SameRun.refl _ with }
      exact ((h.sameRun (sameRun_note (by simp))).sameRun hwarned).withTurn hfree
        (by simp [Turn.IsFree]) (by simp)

theorem Coherent.takeUp (h : s.Coherent) (htake : s.takeUp = some s') : s'.Coherent := by
  obtain ⟨id, hfind, rfl⟩ := Option.map_eq_some_iff.mp htake
  have hbaton : s.hasBaton id = true := by simpa using List.find?_some hfind
  obtain ⟨slot, hslot⟩ : ∃ slot, s.slots.get? id = some slot := by
    cases hslot : s.slots.get? id with
    | none => simp [hasBaton, hslot] at hbaton
    | some slot => exact ⟨slot, rfl⟩
  have hpassing := h.passing_of_baton id hbaton
  have hrun : s.isRunning id = true := (h.running_iff id).mpr (.inr hbaton)
  have hstate : slot.status.state = .running := by simpa [isRunning, hslot] using hrun
  have halone : ∀ t, t ≠ id → s.isRunning t = false := by
    intro t hne
    obtain ⟨u, -, honly⟩ := h.baton_of_passing hpassing
    by_contra hr
    rcases (h.running_iff t).mp (by simpa using hr) with hheld | hb
    · exact absurd (hpassing.symm.trans hheld) (by simp)
    · exact hne ((honly t hb).trans (honly id hbaton).symm)
  have hx : Restands id (some (.running, false)) s
      { s.onSlot id fun slot => { slot with baton := false } with turn := .held id } := by
    have := restands_onSlot id (fun x => { x with baton := false }) s
    rw [hslot, Option.map_some, hstate] at this
    exact this
  have hidle : s.ready.count id = 0 := by
    rw [h.count_ready, isRunnable_eq_false_of_isRunning hrun]
    rfl
  exact h.restands hx (isLive_of_isRunning hrun) halone ⟨rfl, rfl⟩ rfl rfl hidle (fun _ _ => rfl)
    h.history (fun _ hst => hst) (by simp)

/-- Each step of the search keeps the scheduler coherent. -/
theorem Coherent.search {system : PollSystem Descriptor} (h : s.Coherent)
    (hs : s.search system = some s') : s'.Coherent := by
  have hfree : ∀ longest, s.turn.IsFree → (s.serveWaiters system longest).2.turn.IsFree := by
    intro longest hfree
    rwa [(quiet_serveWaiters system longest s).turn]
  have hpolled : ∀ longest, (s.serveWaiters system longest).2.Coherent := fun longest =>
    (quiet_serveWaiters system longest s).coherent h
  cases search_cases hs with
  | poll hturn =>
      exact (hpolled _).withTurn (hfree _ (by simp [hturn, Turn.IsFree])) (by simp [Turn.IsFree])
        (by simp)
  | choose hturn => exact h.choose (by simp [hturn, Turn.IsFree])
  | rest hturn => exact (hpolled _).settleIdle (hfree _ (by simp [hturn, Turn.IsFree]))
  | revive hturn =>
      exact h.withTurn (by simp [hturn, Turn.IsFree]) (by simp [Turn.IsFree]) (by simp)
  | takeUp _ htake => exact h.takeUp htake

/-- What goes on after an idle poll changes the turn and gives an alarm. -/
theorem settleIdle_frame (giver : ThreadId) (woken : Bool) (s : Sched) :
    (s.settleIdle giver woken).ids = s.ids ∧ (s.settleIdle giver woken).canIdle = s.canIdle := by
  unfold Sched.settleIdle
  split
  · exact ⟨rfl, rfl⟩
  · dsimp only
    split <;> exact ⟨rfl, rfl⟩

theorem choose_frame (giver : ThreadId) (s : Sched) :
    (s.choose giver).ids = s.ids ∧ (s.choose giver).canIdle = s.canIdle := by
  unfold Sched.choose Sched.dispatch
  split
  · exact ⟨rfl, rfl⟩
  · dsimp only
    split
    · split <;> exact ⟨rfl, rfl⟩
    · exact ⟨rfl, rfl⟩

theorem takeUp_frame (htake : s.takeUp = some s') :
    s'.ids = s.ids ∧ s'.canIdle = s.canIdle := by
  obtain ⟨id, -, rfl⟩ := Option.map_eq_some_iff.mp htake
  exact ⟨rfl, rfl⟩

/-- The search starts no threads. -/
theorem ids_search {system : PollSystem Descriptor} (hs : s.search system = some s') :
    s'.ids = s.ids := by
  have hpoll : ∀ longest, (s.serveWaiters system longest).2.ids = s.ids := fun longest =>
    (quiet_serveWaiters system longest s).ids
  cases search_cases hs with
  | poll => exact hpoll _
  | choose => exact (choose_frame ..).1
  | rest => exact (settleIdle_frame ..).1.trans (hpoll _)
  | revive => rfl
  | takeUp _ htake => exact (takeUp_frame htake).1

/-- Waits that can be timed after a step of the search could be timed before. -/
theorem canIdle_of_search {system : PollSystem Descriptor} (hs : s.search system = some s')
    (hcan : s'.canIdle = true) : s.canIdle = true := by
  cases search_cases hs with
  | poll => exact (quiet_serveWaiters ..).canIdle hcan
  | choose => rwa [(choose_frame ..).2] at hcan
  | rest =>
      rw [rested, (settleIdle_frame ..).2] at hcan
      exact (quiet_serveWaiters ..).canIdle hcan
  | revive => exact hcan
  | takeUp _ htake => rwa [(takeUp_frame htake).2] at hcan

/-! ## The running thread's moves -/

/-- What one task of the running thread may do to the scheduler. -/
inductive Moves (me : ThreadId) : Sched → Sched → Prop where
  | quiet {s s' : Sched} : Quiet s s' → Moves me s s'
  | stop (s : Sched) : Moves me s (s.stop me)
  | yieldNow (s : Sched) : Moves me s (s.yieldNow me)
  | spawn (s : Sched) : Moves me s s.spawn.2
  /-- A thread that finishes reports so before it leaves. -/
  | finish {s s' : Sched} : Quiet s s' → Moves me s (s'.finish me)
  | conclude {s : Sched} : s.live ≤ 1 → Moves me s (s.conclude me)

/-- A move hands out one identity at most. -/
theorem Moves.ids (hm : Moves me s s') : s'.ids = s.ids ∨ s'.ids = s.ids.allocate.2 := by
  cases hm with
  | quiet hq => exact .inl hq.ids
  | stop =>
      unfold Sched.stop
      dsimp only
      split <;> exact .inl rfl
  | yieldNow => exact .inl rfl
  | spawn => exact .inr rfl
  | finish hq => exact .inl ((quiet_retire_finish me _).ids.trans hq.ids)
  | conclude => exact .inl rfl

/-- Waits that can be timed after a move could be timed before. -/
theorem Moves.canIdle (hm : Moves me s s') (hcan : s'.canIdle = true) : s.canIdle = true := by
  cases hm with
  | quiet hq => exact hq.canIdle hcan
  | stop =>
      unfold Sched.stop at hcan
      dsimp only at hcan
      split at hcan <;> exact hcan
  | yieldNow => exact hcan
  | spawn => exact hcan
  | finish hq => exact hq.canIdle ((quiet_retire_finish me _).canIdle hcan)
  | conclude => exact hcan

theorem Moves.handed_le (hm : Moves me s s') : s.ids.handed ≤ s'.ids.handed := by
  rcases hm.ids with he | he
  · exact Nat.le_of_eq (congrArg _ he.symm)
  · rw [he]
    exact Nat.le_succ _

theorem Moves.issued (hm : Moves me s s') (h : s.ids.Issued t) : s'.ids.Issued t := by
  rcases hm.ids with he | he
  · rwa [he]
  · rw [he]
    exact IdAllocator.issued_allocate_iff.mpr (.inl h)

/-- A move keeps the turn or gives it away, but gives it to nobody. -/
theorem Moves.turn_eq_or_isFree (hm : Moves me s s') : s'.turn = s.turn ∨ s'.turn.IsFree := by
  cases hm with
  | quiet hq => exact .inl hq.turn
  | stop =>
      unfold Sched.stop
      dsimp only
      split
      · exact .inr (by simp [Turn.IsFree])
      · exact .inl rfl
  | yieldNow => exact .inr (by simp [Sched.yieldNow, Turn.IsFree])
  | spawn => exact .inl rfl
  | finish =>
      refine .inr ?_
      rw [(quiet_retire_finish me _).turn]
      simp [Sched.retire, Turn.IsFree]
  | conclude => exact .inr (by simp [Sched.conclude, Sched.note, Sched.retire, Turn.IsFree])

/-- A move of the running thread keeps the scheduler coherent, as long as the numbers last. -/
theorem Coherent.moves (h : s.Coherent) (ht : s.turn = .held me) (hm : Moves me s s')
    (hids : s'.ids.handed ≤ UInt64.size) : s'.Coherent := by
  cases hm with
  | quiet hq => exact hq.coherent h
  | stop => exact h.stop ht
  | yieldNow => exact h.yieldNow ht
  | spawn => exact h.spawn ht hids
  | finish hq => exact (hq.coherent h).finish (hq.turn.trans ht)
  | conclude hlast => exact h.conclude ht hlast

/-- At the start the main thread runs, and there is no other. -/
theorem standing_start (idlePoll : Span) (t : ThreadId) :
    (start idlePoll).standing t = if t = .first then some (.running, false) else none := by
  rw [standing, start]
  dsimp only
  rw [Store.get?_set]
  show Option.map _ (if t = .first then _ else _) = _
  split <;> rfl

/-- A run starts coherent. -/
theorem coherent_start (idlePoll : Span) : (start idlePoll).Coherent := by
  have hget := standing_start idlePoll
  refine {
    census := ⟨[.first], List.nodup_singleton _, fun t => ?_, rfl⟩
    issued := fun t hl => ?_
    count_ready := fun t => ?_
    running_iff := fun t => ?_
    passing_of_baton := fun t hb => ?_
    baton_of_passing := fun hp => ?_
    history := rfl
    no_stale := fun t hst => ?_
    live_of_over := fun ho => by simp [start] at ho }
  · rw [isLive_eq, hget]
    by_cases he : t = .first <;> simp [he]
  · rw [isLive_eq, hget] at hl
    by_cases he : t = .first
    · exact ⟨0, Nat.one_pos, he⟩
    · simp [he] at hl
  · rw [isRunnable_eq, hget]
    by_cases he : t = .first <;> simp [he, start]
  · rw [isRunning_eq, hasBaton_eq, hget]
    show _ ↔ Turn.held .first = .held t ∨ _
    by_cases he : t = .first
    · simp [he]
    · simp [he, Ne.symm he]
  · rw [hasBaton_eq, hget] at hb
    by_cases he : t = .first <;> simp [he] at hb
  · exact absurd hp (by simp [start])
  · exact absurd hst (by simp [start])

end Sched

end Baton
