import Baton.Proofs.Sched.Enrolled

/-!
# Scheduler: deadlock and its alarm

A scheduler is deadlocked when all of its threads are suspended without a pending wakeup, nobody is
queued, and nobody is registered for a descriptor. The search for the next thread neither makes a
deadlock nor resolves one; it comes to the point where the alarm is raised exactly from there. The
alarm is raised once at most.
-/

namespace Baton

/-- How many steps the search is away from the point where the alarm is raised, if no thread is
found. -/
def Turn.distance : Turn → Nat
  | seeking _ => 3
  | choosing _ => 2
  | idle _ => 1
  | _ => 0

namespace Sched

variable {s s' s'' : Sched} {me t id giver : ThreadId} {system : PollSystem Descriptor}
  {longest : Span}

/-- Nothing but a wakeup from outside can go on. -/
structure Deadlocked (s : Sched) : Prop where
  going : s.turn ≠ .over
  suspended : ∀ t, s.isLive t = true → s.semaphore? t = some ⟨true, false⟩
  ready : s.ready = []
  waiters : s.waiters = []

/-- A suspended thread is no longer so after a wakeup. -/
theorem iterate_wake_suspended {n : Nat} (hn : 0 < n) (x : Semaphore) :
    (Semaphore.wake^[n] x).suspended = false := by
  obtain ⟨n, rfl⟩ := Nat.exists_eq_add_one.mpr hn
  rw [Function.iterate_succ_apply']
  rfl

theorem Deadlocked.isStopped (h : s.Deadlocked) (hlive : s.isLive t = true) :
    s.isStopped t = true := by
  rw [isStopped_eq_semaphore?, h.suspended t hlive]
  rfl

theorem Deadlocked.isRunning (h : s.Deadlocked) (t : ThreadId) : s.isRunning t = false := by
  by_contra hrun
  have hrun' := eq_true_of_ne_false hrun
  have hstop := h.isStopped (isLive_of_isRunning hrun')
  rw [isStopped_eq_false_of_isRunning hrun'] at hstop
  cases hstop

/-- In a deadlock nobody has the turn. -/
theorem Deadlocked.isFree (h : s.Deadlocked) (hc : s.Coherent) : s.turn.IsFree := by
  refine ⟨fun hpassing => ?_, fun t ht => ?_⟩
  · obtain ⟨t, hbaton, -⟩ := hc.baton_of_passing hpassing
    exact absurd ((h.isRunning t).symm.trans ((hc.running_iff t).mpr (.inr hbaton))) (by simp)
  · exact absurd ((h.isRunning t).symm.trans (hc.isRunning_of_held ht)) (by simp)

theorem Deadlocked.congr (h : s.Deadlocked) (hgoing : s'.turn ≠ .over)
    (hsemaphore : ∀ t, s'.semaphore? t = s.semaphore? t) (hready : s'.ready = s.ready)
    (hwaiters : s'.waiters = s.waiters) : s'.Deadlocked where
  going := hgoing
  suspended t ht := by
    rw [isLive_eq_semaphore?, hsemaphore, ← isLive_eq_semaphore?] at ht
    exact (hsemaphore t).trans (h.suspended t ht)
  ready := hready.trans h.ready
  waiters := hwaiters.trans h.waiters

/-! ## Polls -/

/-- A poll tells whether it has woken anybody. -/
theorem fst_serveWaiters (system : PollSystem Descriptor) (longest : Span) (s : Sched) :
    (s.serveWaiters system longest).1 = !(s.polled system longest).isEmpty := by
  unfold serveWaiters polled
  split
  · rfl
  · exact congrArg not List.isEmpty_map.symm

/-- A poll wakes a registered thread or leaves it registered. -/
theorem mem_polled_or_waiting {w : Waiter Descriptor} (hw : w ∈ s.waiters)
    (system : PollSystem Descriptor) (longest : Span) : w.id ∈ s.polled system longest ∨
      w.id ∈ (s.serveWaiters system longest).2.waiters.map Waiter.id := by
  unfold polled serveWaiters
  rw [if_neg (by simpa using List.ne_nil_of_mem hw), if_neg (by simpa using List.ne_nil_of_mem hw)]
  dsimp only
  rw [waiters_deliver, ← List.mem_append, (Waiter.settle_perm ..).mem_iff]
  exact List.mem_map_of_mem hw

/-- After a poll with somebody registered, somebody is awake or still registered. -/
theorem Enrolled.waiters_eq_nil (h : s.Enrolled)
    (hsuspended : ∀ t, (s.serveWaiters system longest).2.isLive t = true →
      (s.serveWaiters system longest).2.semaphore? t = some ⟨true, false⟩)
    (hwaiters : (s.serveWaiters system longest).2.waiters = []) : s.waiters = [] := by
  rw [List.eq_nil_iff_forall_not_mem]
  intro w hw
  rcases mem_polled_or_waiting hw system longest with hpolled | hwaiting
  · have hlive := h.live w hw
    have hwoken := hsuspended w.id (by rwa [isLive_serveWaiters])
    rw [semaphore?_serveWaiters] at hwoken
    obtain ⟨x, -, hx⟩ := Option.map_eq_some_iff.mp hwoken
    have hawake := iterate_wake_suspended (List.count_pos_iff.mpr hpolled) x
    rw [hx] at hawake
    cases hawake
  · rw [hwaiters] at hwaiting
    cases hwaiting

/-! ## Resting -/

/-- With nobody registered the giver is stuck, and raises the alarm unless it has been raised. -/
theorem rested_of_nil (h : s.waiters = []) : s.rested system giver =
    { (if s.warned then s else { s.note .stuck with warned := true }) with
      turn := .stuck giver } := by
  simp [rested, settleIdle, serveWaiters_of_nil h, h]

/-- With somebody registered the giver searches on. -/
theorem rested_of_ne_nil (h : s.waiters ≠ []) : s.rested system giver =
    { (s.serveWaiters system s.idlePoll).2 with turn := .seeking giver } := by
  have hgoes : ((s.serveWaiters system s.idlePoll).1 ||
      !(s.serveWaiters system s.idlePoll).2.waiters.isEmpty) = true := by
    obtain ⟨w, hw⟩ := List.exists_mem_of_ne_nil _ h
    rw [fst_serveWaiters, Bool.or_eq_true]
    refine (mem_polled_or_waiting hw system s.idlePoll).imp (fun hin => ?_) fun hin => ?_
    · simpa using List.ne_nil_of_mem hin
    · simpa using List.ne_nil_of_mem hin
  exact if_pos hgoes

/-! ## The search -/

theorem choose_of_nil (h : s.ready = []) : s.choose giver = { s with turn := .idle giver } := by
  unfold choose
  split
  · rfl
  · rename_i hready
    exact absurd (hready.symm.trans h) (by simp)

/-- A change of the turn alone makes no deadlock and resolves none. -/
theorem deadlocked_withTurn_iff {turn : Turn} (hold : s.turn ≠ .over) (hnew : turn ≠ .over) :
    Deadlocked { s with turn } ↔ s.Deadlocked :=
  ⟨fun h => h.congr hold (fun _ => rfl) rfl rfl, fun h => h.congr hnew (fun _ => rfl) rfl rfl⟩

/-- Neither does a poll: if somebody is registered, there was no deadlock and there is none. -/
theorem Enrolled.deadlocked_poll_iff {turn : Turn} (he : s.Enrolled) (hold : s.turn ≠ .over)
    (hnew : turn ≠ .over) :
    Deadlocked { (s.serveWaiters system longest).2 with turn } ↔ s.Deadlocked := by
  have hpolled : s.waiters = [] → (s.serveWaiters system longest).2 = s := fun hnil => by
    rw [serveWaiters_of_nil hnil]
  constructor
  · intro h
    have hnil := he.waiters_eq_nil h.suspended h.waiters
    rw [hpolled hnil] at h
    exact (deadlocked_withTurn_iff hold hnew).mp h
  · intro h
    rw [hpolled h.waiters]
    exact (deadlocked_withTurn_iff hold hnew).mpr h

/-- The search neither makes a deadlock nor resolves one. -/
theorem deadlocked_search_iff (hc : s.Coherent) (he : s.Enrolled)
    (hs : s.search system = some s') : s'.Deadlocked ↔ s.Deadlocked := by
  have hbusy : ¬ s'.turn.IsFree → ¬ s'.Deadlocked := fun hb h => hb (h.isFree (hc.search hs))
  cases search_cases hs with
  | poll hturn => exact he.deadlocked_poll_iff (by simp [hturn]) (by simp)
  | @choose giver hturn =>
      cases hready : s.ready with
      | nil =>
          rw [choose_of_nil hready]
          exact deadlocked_withTurn_iff (by simp [hturn]) (by simp)
      | cons id rest =>
          -- A runnable thread gets the turn, so there is a deadlock neither before nor after.
          refine iff_of_false (hbusy ?_) fun h => ?_
          · have hrunnable : isRunnable id { s with ready := rest } = true :=
              hc.isRunnable_head hready
            have hchoose : s.choose giver = Sched.dispatch giver id { s with ready := rest } := by
              rw [choose, hready]
              exact if_pos hrunnable
            rw [hchoose, turn_dispatch]
            split <;> simp [Turn.IsFree]
          · exact absurd (hready.symm.trans h.ready) (by simp)
  | @rest giver hturn =>
      by_cases hnil : s.waiters = []
      · rw [rested_of_nil hnil]
        have hstuck : Deadlocked { s with turn := .stuck giver } ↔ s.Deadlocked :=
          deadlocked_withTurn_iff (by simp [hturn]) (by simp)
        refine Iff.trans ?_ hstuck
        split
        · rfl
        · exact ⟨fun h => h.congr (by simp) (fun _ => rfl) rfl rfl,
            fun h => h.congr (by simp) (fun _ => rfl) rfl rfl⟩
      · rw [rested_of_ne_nil hnil]
        exact he.deadlocked_poll_iff (by simp [hturn]) (by simp)
  | revive hturn => exact deadlocked_withTurn_iff (by simp [hturn]) (by simp)
  | takeUp hturn htake =>
      obtain ⟨id, -, rfl⟩ := Option.map_eq_some_iff.mp htake
      exact iff_of_false (hbusy (by simp [Turn.IsFree])) fun h => (h.isFree hc).1 hturn

/-- In a deadlock the search goes straight to the alarm. -/
theorem Deadlocked.exists_search (h : s.Deadlocked) (hc : s.Coherent)
    (hturn : ∀ g, s.turn ≠ .stuck g) (system : PollSystem Descriptor) :
    ∃ s', s.search system = some s' ∧ s'.turn.distance < s.turn.distance := by
  obtain ⟨hpassing, hheld⟩ := h.isFree hc
  have hover := h.going
  have hcan : ∀ longest, s.canPoll longest = true := fun _ => canPoll_of_nil h.waiters
  cases ht : s.turn with
  | held me => exact absurd ht (hheld me)
  | seeking giver => exact ⟨_, search_of_seeking ht (hcan _), by simp [Turn.distance]⟩
  | choosing giver =>
      exact ⟨_, by rw [search, ht], by simp [choose_of_nil h.ready, Turn.distance]⟩
  | idle giver =>
      exact ⟨_, search_of_idle ht (hcan _), by simp [rested_of_nil h.waiters, Turn.distance]⟩
  | stuck giver => exact absurd ht (hturn giver)
  | passing => exact absurd ht hpassing
  | _ => exact absurd ht hover

/-! ## The alarm -/

/-- The alarm is left alone. -/
structure SameAlarm (s s' : Sched) : Prop where
  warned : s'.warned = s.warned
  alarms : s'.alarms = s.alarms

theorem SameAlarm.refl (s : Sched) : SameAlarm s s := ⟨rfl, rfl⟩

theorem SameAlarm.trans (h : SameAlarm s s') (h' : SameAlarm s' s'') : SameAlarm s s'' :=
  ⟨h'.warned.trans h.warned, h'.alarms.trans h.alarms⟩

theorem Routine.sameAlarm {ids : List ThreadId} (h : Routine ids s s') : SameAlarm s s' :=
  ⟨h.warned, h.alarms⟩

theorem sameAlarm_note {n : Notice} (hn : n.isAlarm = false) (s : Sched) : SameAlarm s (s.note n) :=
  (routine_note hn s).sameAlarm

theorem sameAlarm_onSlot (id : ThreadId) (f : Slot → Slot) (s : Sched) :
    SameAlarm s (s.onSlot id f) := ⟨rfl, rfl⟩

theorem sameAlarm_wakeAll (ids : List ThreadId) (s : Sched) : SameAlarm s (s.wakeAll ids) :=
  (routine_wakeAll ids s).sameAlarm

theorem sameAlarm_stop (me : ThreadId) (s : Sched) : SameAlarm s (s.stop me) := by
  unfold stop
  dsimp only
  split <;> exact ⟨rfl, rfl⟩

theorem sameAlarm_spawn (s : Sched) : SameAlarm s s.spawn.2 :=
  ⟨rfl, (sameAlarm_note (n := .spawned s.ids.next) rfl s).alarms⟩

theorem sameAlarm_finish (me : ThreadId) (s : Sched) : SameAlarm s (s.finish me) :=
  { sameAlarm_wakeAll (s.joinersOf me ++ if s.live = 2 then [s.main] else [])
      (s.retire me (.seeking me)) with }

theorem sameAlarm_conclude (me : ThreadId) (s : Sched) : SameAlarm s (s.conclude me) :=
  { sameAlarm_note (n := .finished) rfl (s.retire me .over) with }

theorem sameAlarm_tell (done : List (ThreadId × Delivery Descriptor)) (s : Sched) :
    SameAlarm s (s.tell done) := by
  induction done generalizing s with
  | nil => exact .refl s
  | cons d done ih => exact (sameAlarm_onSlot d.1 _ s).trans (ih _)

theorem sameAlarm_deliver (outcome : Delivery Descriptor) (s : Sched) :
    SameAlarm s (s.deliver outcome) :=
  have hwaiters : SameAlarm s { s with waiters := (Waiter.settle s.clock outcome s.waiters).2 } :=
    ⟨rfl, rfl⟩
  (hwaiters.trans (sameAlarm_tell _ _)).trans (sameAlarm_wakeAll _ _)

theorem sameAlarm_serveWaiters (system : PollSystem Descriptor) (longest : Span) (s : Sched) :
    SameAlarm s (s.serveWaiters system longest).2 := by
  unfold serveWaiters
  split
  · exact .refl s
  · exact { sameAlarm_deliver _ (s.elapse _) with }

theorem sameAlarm_choose (giver : ThreadId) (s : Sched) : SameAlarm s (s.choose giver) := by
  unfold choose
  split
  · exact ⟨rfl, rfl⟩
  · dsimp only
    split
    · unfold dispatch
      split
      · exact ⟨rfl, rfl⟩
      · exact { sameAlarm_note (n := .switched giver _) rfl s with }
    · exact { sameAlarm_note (n := .stale _) rfl s with }

/-- The alarm has been raised once or not at all, and it is known which. -/
def AlarmKept (s : Sched) : Prop := s.alarms = s.warned.toNat

theorem AlarmKept.le_one (h : s.AlarmKept) : s.alarms ≤ 1 := by
  rw [h]
  exact Bool.toNat_le s.warned

theorem AlarmKept.sameAlarm (h : s.AlarmKept) (hs : SameAlarm s s') : s'.AlarmKept := by
  rw [AlarmKept, hs.alarms, hs.warned]
  exact h

theorem AlarmKept.rested (h : s.AlarmKept) : (s.rested system giver).AlarmKept := by
  by_cases hnil : s.waiters = []
  · rw [rested_of_nil hnil]
    cases hwarned : s.warned with
    | true => exact h
    | false =>
        rw [AlarmKept, hwarned] at h
        show (s.note .stuck).alarms = 1
        exact (List.countP_cons_of_pos rfl).trans (congrArg (· + 1) h)
  · rw [rested_of_ne_nil hnil]
    exact h.sameAlarm { sameAlarm_serveWaiters system s.idlePoll s with }

theorem AlarmKept.search (h : s.AlarmKept) (hs : s.search system = some s') : s'.AlarmKept := by
  cases search_cases hs with
  | poll => exact h.sameAlarm { sameAlarm_serveWaiters system .zero s with }
  | choose => exact h.sameAlarm (sameAlarm_choose _ s)
  | rest => exact h.rested
  | revive => exact h
  | takeUp _ htake =>
      obtain ⟨id, -, rfl⟩ := Option.map_eq_some_iff.mp htake
      exact h

/-! ## Runs without wakeups from outside -/

/-- As long as no wakeups come from outside, nothing comes between the choice of a thread and the
alarm, and a giver that is stuck remains so. -/
structure Steady (s : Sched) : Prop where
  idle : ∀ g, s.turn = .idle g → s.ready = []
  stuck : ∀ g, s.turn = .stuck g → s.ready = [] ∧ s.waiters = []
  warned : s.warned = true ↔ ∃ g, s.turn = .stuck g

/-- While the turn is elsewhere there is only the flag to look after. -/
theorem Steady.of_busy (h : s.Steady) (hwas : ∀ g, s.turn ≠ .stuck g)
    (hidle : ∀ g, s'.turn ≠ .idle g) (hstuck : ∀ g, s'.turn ≠ .stuck g) (hs : SameAlarm s s') :
    s'.Steady where
  idle g ht := absurd ht (hidle g)
  stuck g ht := absurd ht (hstuck g)
  warned := by
    rw [hs.warned, h.warned]
    exact iff_of_false (fun ⟨g, hg⟩ => hwas g hg) fun ⟨g, hg⟩ => hstuck g hg

theorem Steady.choose (h : s.Steady) (hturn : s.turn = .choosing giver) :
    (s.choose giver).Steady := by
  have hwarned : s.warned = true ↔ False := by simp [h.warned, hturn]
  cases hready : s.ready with
  | nil =>
      rw [choose_of_nil hready]
      exact ⟨fun _ _ => hready, by simp, by simp [hwarned]⟩
  | cons id rest =>
      have hne : (∀ g, (s.choose giver).turn ≠ .idle g) ∧
          ∀ g, (s.choose giver).turn ≠ .stuck g := by
        rw [Sched.choose, hready]
        dsimp only
        split
        · rw [turn_dispatch]
          split <;> simp
        · simp [Sched.note, hturn]
      exact h.of_busy (by simp [hturn]) hne.1 hne.2 (sameAlarm_choose giver s)

theorem Steady.rested (h : s.Steady) (hturn : s.turn = .idle giver) :
    (s.rested system giver).Steady := by
  by_cases hnil : s.waiters = []
  · rw [rested_of_nil hnil]
    have hready := h.idle giver hturn
    split
    · rename_i hwarned
      exact ⟨by simp, fun _ _ => ⟨hready, hnil⟩, by simp [hwarned]⟩
    · exact ⟨by simp, fun _ _ => ⟨hready, hnil⟩, by simp⟩
  · rw [rested_of_ne_nil hnil]
    exact h.of_busy (by simp [hturn]) (by simp) (by simp)
      { sameAlarm_serveWaiters system s.idlePoll s with }

theorem Steady.search (h : s.Steady) (hs : s.search system = some s') : s'.Steady := by
  cases search_cases hs with
  | poll hturn =>
      exact h.of_busy (by simp [hturn]) (by simp) (by simp)
        { sameAlarm_serveWaiters system .zero s with }
  | choose hturn => exact h.choose hturn
  | rest hturn => exact h.rested hturn
  | revive hturn hready => exact absurd (h.stuck _ hturn).1 hready
  | takeUp hturn htake =>
      obtain ⟨id, -, rfl⟩ := Option.map_eq_some_iff.mp htake
      exact h.of_busy (by simp [hturn]) (by simp) (by simp) ⟨rfl, rfl⟩

/-- After a move of the running thread it has the turn, or nobody; it is not found stuck by that. -/
theorem Moves.turn_ne (hm : Moves me s s') (ht : s.turn = .held me) :
    (∀ g, s'.turn ≠ .idle g) ∧ ∀ g, s'.turn ≠ .stuck g := by
  cases hm with
  | quiet hq => simp [hq.turn, ht]
  | stop => rcases turn_stop ht with h | h <;> simp [h]
  | yieldNow => simp [Sched.yieldNow]
  | spawn => simp [show s.spawn.2.turn = s.turn from rfl, ht]
  | finish hq => simp [(quiet_retire_finish me _).turn, Sched.retire]
  | conclude => simp [Sched.conclude, Sched.note, Sched.retire]

end Sched

end Baton
