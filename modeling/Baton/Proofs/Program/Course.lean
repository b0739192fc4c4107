import Baton.Proofs.Program.Moves

/-!
# Machine: the course of a thread

What may stand on a thread's stack, and what the thread relies on when it comes to a task. A thread
that does not run is parked: at plain tasks, at a task that waits, or on its way back from a
rendezvous to a second look at a lock. The running thread may besides be about to suspend; what it
then waits for is pending already.
-/

namespace Baton

/-- Whether the task is a queued thread's second look at a lock. -/
def Task.isRecheck : Task → Bool
  | recheckRead _ | recheckWrite _ => true
  | _ => false

/-- Whether the task waits for something other than a lock or a rendezvous. -/
def Task.isWait : Task → Bool
  | awaitThread _ | collect | drain => true
  | _ => false

namespace Machine

variable {me t : ThreadId} {m m' : Machine} {ts : List Task} {x : Task}

/-- What may stand below the request for a mutex: plain tasks, and on them a second look at a
lock. -/
inductive Tail (t : ThreadId) (m : Machine) : List Task → Prop where
  | plain {ts : List Task} : (∀ y ∈ ts, y.isPlain = true) → Tail t m ts
  | recheck {x : Task} {ts : List Task} : x.isRecheck = true → m.Kept t x →
      (∀ y ∈ ts, y.isPlain = true) → Tail t m (x :: ts)

/-- The stack of a thread that need not run. -/
inductive Parked (t : ThreadId) (m : Machine) : List Task → Prop where
  | tail {ts : List Task} : Tail t m ts → Parked t m ts
  | wait {x : Task} {ts : List Task} : x.isWait = true → m.Kept t x →
      (∀ y ∈ ts, y.isPlain = true) → Parked t m (x :: ts)
  | acquire {name : MutexName} {ts : List Task} : Tail t m ts → Parked t m (.acquire name :: ts)
  | awaitOwner {name : MutexName} {ts : List Task} : m.Kept t (.awaitOwner name) → Tail t m ts →
      Parked t m (.awaitOwner name :: ts)
  | leave {r : RendezName} {name : MutexName} {ts : List Task} : Tail t m ts →
      Parked t m (.leave r :: .acquire name :: ts)

/-- The stack of the running thread. -/
inductive Course (t : ThreadId) (m : Machine) : List Task → Prop where
  | parked {ts : List Task} : Parked t m ts → Course t m ts
  | suspend {a : Await} {ts : List Task} : Await.of ts = some a → m.Pending t a →
      Parked t m ts → Course t m (.suspend :: ts)
  | release {name back : MutexName} {r : RendezName} {ts : List Task} : m.Pending t r.await →
      Tail t m ts → Course t m (.release name :: .suspend :: .leave r :: .acquire back :: ts)
  | sleepReader {l : LockName} {ts : List Task} : t ∈ (m.locks.get l).readQueue →
      t ∉ (m.locks.get l).readers → (∀ y ∈ ts, y.isPlain = true) →
      Course t m (.sleepOn (.readers l) (.inner l) :: .recheckRead l :: ts)
  | sleepWriter {l : LockName} {ts : List Task} : t ∈ (m.locks.get l).writeQueue →
      (m.locks.get l).writer ≠ some t → (∀ y ∈ ts, y.isPlain = true) →
      Course t m (.sleepOn (.writers l) (.inner l) :: .recheckWrite l :: ts)

/-! ## What survives a change of the machine -/

theorem Tail.mono (h : Tail t m ts) (hk : ∀ x, m.Kept t x → m'.Kept t x) : Tail t m' ts := by
  cases h with
  | plain hp => exact .plain hp
  | recheck hr hkept hp => exact .recheck hr (hk _ hkept) hp

theorem Parked.mono (h : Parked t m ts) (hk : ∀ x, m.Kept t x → m'.Kept t x) :
    Parked t m' ts := by
  cases h with
  | tail ht => exact .tail (ht.mono hk)
  | wait hw hkept hp => exact .wait hw (hk _ hkept) hp
  | acquire ht => exact .acquire (ht.mono hk)
  | awaitOwner hkept ht => exact .awaitOwner (hk _ hkept) (ht.mono hk)
  | leave ht => exact .leave (ht.mono hk)

theorem Course.mono (h : Course t m ts) (hk : ∀ x, m.Kept t x → m'.Kept t x)
    (hp : ∀ a, m.Pending t a → m'.Pending t a) (hl : m'.locks = m.locks) : Course t m' ts := by
  cases h with
  | parked hparked => exact .parked (hparked.mono hk)
  | suspend ha hpending hparked => exact .suspend ha (hp _ hpending) (hparked.mono hk)
  | release hpending htail => exact .release (hp _ hpending) (htail.mono hk)
  | sleepReader hq hr hplain => exact .sleepReader (hl ▸ hq) (hl ▸ hr) hplain
  | sleepWriter hq hw hplain => exact .sleepWriter (hl ▸ hq) (hl ▸ hw) hplain

/-- A second look relies on nothing but the lock. -/
theorem Tail.of_locks (h : Tail t m ts) (hl : m'.locks = m.locks) : Tail t m' ts := by
  cases h with
  | plain hp => exact .plain hp
  | @recheck x ts hr hkept hp =>
      refine .recheck hr ?_ hp
      cases x with
      | recheckRead l => trivial
      | recheckWrite l =>
          unfold Kept at hkept ⊢
          rw [hl]
          exact hkept
      | _ => cases hr

/-- A sleep depends on the rendezvous and the locks. -/
theorem pending_await {r : RendezName} (h : m.Pending t r.await)
    (hr : m'.rendezvous = m.rendezvous) (hl : m'.locks = m.locks) : m'.Pending t r.await := by
  cases r <;> simp only [RendezName.await, Pending, hr, hl] at h ⊢ <;> exact h

theorem kept_onSched {s : Sched} (hs : Sched.SameWaits m.sched s) (h : m.Kept t x) :
    Kept t { m with sched := s } x := by
  cases x with
  | awaitThread id =>
      exact ⟨fun he => h.1 (he.trans hs.main), h.2.imp_left ((hs.live id).trans ·)⟩
  | collect =>
      refine ⟨(hs.live t).trans h.1, h.2.imp (fun ⟨w, hw, hid⟩ => ⟨w, hs.waiters ▸ hw, hid⟩) ?_⟩
      exact fun hd => (hs.delivery t).trans_ne hd
  | drain => exact (h : t = _).trans hs.main.symm
  | _ => exact h

theorem pending_onSched {s : Sched} (hs : Sched.SameWaits m.sched s) {a : Await}
    (h : m.Pending t a) : Pending t { m with sched := s } a := by
  cases a with
  | thread id => exact ⟨(hs.live id).trans h.1, h.2.1, hs.joiners id ▸ h.2.2⟩
  | descriptors =>
      obtain ⟨⟨w, hw, hid⟩, hd⟩ := h
      exact ⟨⟨w, hs.waiters ▸ hw, hid⟩, (hs.delivery t).trans hd⟩
  | others =>
      obtain ⟨he, u, hu, hul⟩ := h
      exact ⟨he.trans hs.main.symm, u, hu, (hs.live u).trans hul⟩
  | _ => exact h

/-! ## Mutexes and rendezvous -/

theorem Course.plain (h : m.Plain me) : Course me m (m.stackOf me) := .parked (.tail (.plain h))

theorem request_queued {y : Mutex} (h : (y.request me).1 = .queued) :
    me ∈ (y.request me).2.waiting ∧ (y.request me).2.owner ≠ some me := by
  unfold Mutex.request at h ⊢
  split at h
  · cases h
  · rename_i hme
    split at h
    · cases h
    · rename_i hfree
      simp [hme, hfree]

/-- A thread that finds a mutex taken is queued for it when it suspends. -/
theorem course_acquire (name : MutexName) (ht : Tail me m (m.stackOf me)) :
    Course me (m.acquire me name) ((m.acquire me name).stackOf me) := by
  unfold acquire
  dsimp only
  split
  · exact .parked (.tail (ht.of_locks rfl))
  · rename_i hq
    have hpending : (m.setMutex name ((m.mutexes.get name).request me).2).Pending me
        (.mutex name) := by
      have hget : (m.setMutex name ((m.mutexes.get name).request me).2).mutexes.get name =
          ((m.mutexes.get name).request me).2 := (Store.get_set ..).trans (if_pos rfl)
      have hqueued := request_queued hq
      rw [← hget] at hqueued
      exact hqueued
    rw [stackOf_push]
    exact .suspend rfl hpending (.awaitOwner (.inl hpending.1) (ht.of_locks rfl))
  · exact .plain (plain_panic me _ _)

/-- Whoever is not the owner still waits in the queue. -/
theorem course_awaitOwner {name : MutexName} (hk : m.Kept me (.awaitOwner name))
    (ht : Tail me m (m.stackOf me)) :
    Course me (m.awaitOwner me name) ((m.awaitOwner me name).stackOf me) := by
  unfold awaitOwner
  split
  · exact .parked (.tail ht)
  · rename_i hown
    have hne : (m.mutexes.get name).owner ≠ some me := by
      simpa [Mutex.isOwnedBy] using hown
    rw [stackOf_push]
    exact .suspend rfl ⟨hk.resolve_right hne, hne⟩ (.awaitOwner hk (ht.of_locks rfl))

/-- A thread is registered in a rendezvous before it releases the mutex. -/
theorem course_sleepOn {r : RendezName} (name : MutexName) (ht : Tail me m (m.stackOf me))
    (hp : me ∈ ((m.setRendez r ((m.rendezvous.get r).enlist me)).rendezvous.get r).sleepers →
      (m.setRendez r ((m.rendezvous.get r).enlist me)).Pending me r.await) :
    Course me (m.sleepOn me r name) ((m.sleepOn me r name).stackOf me) := by
  have hmem :
      me ∈ ((m.setRendez r ((m.rendezvous.get r).enlist me)).rendezvous.get r).sleepers := by
    have hget : (m.setRendez r ((m.rendezvous.get r).enlist me)).rendezvous.get r =
        (m.rendezvous.get r).enlist me := (Store.get_set ..).trans (if_pos rfl)
    rw [hget]
    exact List.mem_append_right _ (List.mem_singleton_self me)
  unfold sleepOn
  rw [stackOf_push]
  exact .release (pending_await (hp hmem) rfl rfl) (ht.of_locks rfl)

/-- A sleep on a public rendezvous waits for nothing else. -/
theorem course_sleepOn_public {r : RendezName} (name : MutexName) (hr : r.isPublic = true)
    (hp : m.Plain me) : Course me (m.sleepOn me r name) ((m.sleepOn me r name).stackOf me) := by
  apply course_sleepOn name (.plain hp)
  intro hmem
  cases r with
  | raw i => exact hmem
  | cond k => exact hmem
  | readers l => cases hr
  | writers l => cases hr

theorem stackOf_release (name : MutexName) : (m.release me name).stackOf me = m.stackOf me := by
  unfold release
  dsimp only
  split
  · split <;> rfl
  · rfl

theorem acquire_frame (me : ThreadId) (name : MutexName) (m : Machine) :
    (m.acquire me name).rendezvous = m.rendezvous ∧ (m.acquire me name).locks = m.locks := by
  unfold acquire
  dsimp only
  split <;> exact ⟨rfl, rfl⟩

theorem release_frame (me : ThreadId) (name : MutexName) (m : Machine) :
    (m.release me name).rendezvous = m.rendezvous ∧ (m.release me name).locks = m.locks := by
  unfold release
  dsimp only
  split
  · split <;> exact ⟨rfl, rfl⟩
  · exact ⟨rfl, rfl⟩

/-! ## Reader/writer locks -/

theorem get_setLock (l : LockName) (y : RwState) (m : Machine) :
    (m.setLock l y).locks.get l = y :=
  (Store.get_set ..).trans (if_pos rfl)

/-- The end of a critical section is plain. -/
theorem plain_close (hp : m.Plain me) (r : Reply) (l : LockName) :
    ((m.answer me r).push me [.closeSection l]).Plain me :=
  ((tame_answer me r m).trans (tame_push (isPlain_of_all rfl))).plain hp

theorem course_requestRead {l : LockName} (hp : m.Plain me)
    (hx : (m.locks.get l).isExclusive = true) :
    Course me (m.requestRead me l) ((m.requestRead me l).stackOf me) := by
  unfold requestRead
  dsimp only
  split
  · exact .plain (plain_close (m := m.setLock l _) hp _ l)
  · rename_i hq
    have hqueued := RwState.requestRead_queued hx hq
    rw [← get_setLock l ((m.locks.get l).requestRead me).2 m] at hqueued
    rw [stackOf_push, stackOf_answer]
    exact .sleepReader hqueued.1 hqueued.2 hp
  · exact .plain (plain_close (m := (m.setLock l _).note _) hp _ l)

theorem course_requestWrite {l : LockName} (hp : m.Plain me) :
    Course me (m.requestWrite me l) ((m.requestWrite me l).stackOf me) := by
  unfold requestWrite
  dsimp only
  split
  · exact .plain (plain_close (m := m.setLock l _) hp _ l)
  · rename_i hq
    have hqueued := RwState.requestWrite_queued hq
    rw [← get_setLock l ((m.locks.get l).requestWrite me).2 m] at hqueued
    rw [stackOf_push, stackOf_answer]
    exact .sleepWriter hqueued.1 hqueued.2 hp
  · exact .plain (plain_close (m := (m.setLock l _).note _) hp _ l)

theorem course_recheckRead {l : LockName} (hp : m.Plain me)
    (hx : (m.locks.get l).isExclusive = true) :
    Course me (m.recheckRead me l) ((m.recheckRead me l).stackOf me) := by
  unfold recheckRead
  dsimp only
  rw [stackOf_push]
  cases hg : ((m.locks.get l).recheckRead me).1 with
  | true => exact .parked (.tail (.plain (List.forall_mem_cons.mpr ⟨rfl, hp⟩)))
  | false =>
      have hqueued := RwState.recheckRead_false hx hg
      rw [← get_setLock l ((m.locks.get l).recheckRead me).2 m] at hqueued
      exact .sleepReader hqueued.1 hqueued.2 hp

theorem course_recheckWrite {l : LockName} (hp : m.Plain me)
    (hk : m.Kept me (.recheckWrite l)) :
    Course me (m.recheckWrite me l) ((m.recheckWrite me l).stackOf me) := by
  unfold recheckWrite
  dsimp only
  rw [stackOf_push]
  cases hg : ((m.locks.get l).recheckWrite me).1 with
  | true => exact .parked (.tail (.plain (List.forall_mem_cons.mpr ⟨rfl, hp⟩)))
  | false =>
      have hqueued := RwState.recheckWrite_false hk hg
      rw [← get_setLock l ((m.locks.get l).recheckWrite me).2 m] at hqueued
      exact .sleepWriter hqueued.1 hqueued.2 hp

/-! ## Threads -/

theorem course_join {id : ThreadId} (hp : m.Plain me)
    (hh : ∀ id ∈ m.handles, m.Spawned id) :
    Course me (m.join me id) ((m.join me id).stackOf me) := by
  unfold join
  split
  · rename_i hid
    rw [stackOf_push]
    exact .parked (.wait rfl (hh id hid) hp)
  · exact .plain ((tame_answer me _ m).plain hp)

/-- A joiner is on the list of a live thread when it suspends. -/
theorem course_awaitThread {id : ThreadId} (hp : m.Plain me) (hk : m.Spawned id) :
    Course me (m.awaitThread me id) ((m.awaitThread me id).stackOf me) := by
  unfold awaitThread
  split
  · exact .plain ((tame_answer me _ m).plain hp)
  · rename_i hnone
    have hlive : m.sched.isLive id = true := hk.2.resolve_right fun ho => ho hnone
    have hlive' : (m.sched.addJoiner id me).isLive id = true :=
      (Sched.isLive_onSlot ..).trans hlive
    have hpending : (m.onSched (Sched.addJoiner id me)).Pending me (.thread id) :=
      ⟨hlive', hnone, Sched.mem_joinersOf_addJoiner hlive⟩
    rw [stackOf_push]
    exact .suspend rfl hpending (.wait rfl ⟨hk.1, .inl hlive'⟩ hp)

theorem course_stopUntil {v : Nat} {x : Int} {count : Nat} (hp : m.Plain me) :
    Course me (m.stopUntil me v x count) ((m.stopUntil me v x count).stackOf me) := by
  unfold stopUntil
  split
  · exact .plain ((tame_answer me _ m).plain hp)
  · split
    · rw [stackOf_push]
      exact .suspend rfl trivial (.tail (.plain (List.forall_mem_cons.mpr ⟨rfl, hp⟩)))
    · exact .plain ((tame_answer me _ m).plain hp)

theorem course_finish {o : Outcome} (hp : m.Plain me) :
    Course me (m.finish me o) ((m.finish me o).stackOf me) := by
  unfold finish
  split
  · rename_i hme
    rw [stackOf_push]
    exact .parked (.wait rfl hme hp)
  · exact .plain hp

theorem course_abort {text : String} (hp : m.Plain me) :
    Course me (m.abort me text) ((m.abort me text).stackOf me) := by
  unfold abort
  split
  · exact course_finish hp
  · exact course_finish (m := m.note _) hp

theorem plain_spawn (code : Nat) (hp : m.Plain me) : (m.spawn me code).Plain me := by
  unfold spawn
  apply (tame_answer me _ _).plain
  show ∀ y ∈ ((m.threads.set m.sched.spawn.1 _).get me).stack, y.isPlain = true
  rw [Store.get_set]
  split
  · exact isPlain_code
  · exact hp

/-- While others are live the main thread waits for them. -/
theorem course_drain (hc : m.sched.Coherent) (hp : m.Plain me) (hme : me = m.sched.main) :
    Course me (m.drain me) ((m.drain me).stackOf me) := by
  unfold drain
  split
  · rename_i hlive
    obtain ⟨u, hu, hul⟩ := hc.exists_live_not_mem (show [me].length < m.sched.live from hlive)
    rw [stackOf_push]
    exact .suspend rfl ⟨hme, u, List.ne_of_not_mem_cons hu, hul⟩ (.wait rfl hme hp)
  · exact .plain hp

/-! ## Descriptors -/

/-- A wait for descriptors is registered before the thread looks for its outcome. -/
theorem course_selectEntries {entries : List (PollEntry Descriptor)} {timeout : Option Span}
    (hp : m.Plain me) (hlive : m.sched.isLive me = true) :
    Course me (m.selectEntries me entries timeout)
      ((m.selectEntries me entries timeout).stackOf me) := by
  have hawait : ∀ deadline : Option Instant, Course me
      (((m.onSched (Sched.elapse Sched.pollCost)).onSched
        (Sched.await ⟨me, entries, deadline⟩)).push me [.collect])
      ((((m.onSched (Sched.elapse Sched.pollCost)).onSched
        (Sched.await ⟨me, entries, deadline⟩)).push me [.collect]).stackOf me) := by
    intro deadline
    have hlive' :
        ((m.sched.elapse Sched.pollCost).await ⟨me, entries, deadline⟩).isLive me = true :=
      (Sched.isLive_onSlot ..).trans hlive
    rw [stackOf_push]
    exact .parked (.wait rfl ⟨hlive', .inl (Sched.registered_await _ _)⟩ hp)
  unfold selectEntries
  dsimp only
  split
  · exact .plain ((tame_answer me _ (m.onSched _)).plain hp)
  · split
    · exact .plain ((tame_answer me _ (m.onSched _)).plain hp)
    · split
      · exact hawait _
      · split
        · exact hawait _
        · exact .plain (plain_panic me _ _)

theorem course_select {entries : List (Descriptor × Interest)} {timeout : Option Span}
    (hp : m.Plain me) (hlive : m.sched.isLive me = true) :
    Course me (m.select me entries timeout) ((m.select me entries timeout).stackOf me) := by
  unfold select
  split
  · exact .plain ((tame_pollHere _ timeout).plain hp)
  · exact course_selectEntries hp hlive

/-- Without an outcome the wait is still registered. -/
theorem course_collect (hp : m.Plain me) (hk : m.Kept me .collect) :
    Course me (m.collect me) ((m.collect me).stackOf me) := by
  unfold collect
  split
  · rename_i hnone
    rw [stackOf_push]
    exact .suspend rfl ⟨hk.2.resolve_right fun hd => hd hnone, hnone⟩ (.wait rfl hk hp)
  · exact .plain ((tame_answer me _ (m.onSched _)).plain hp)

/-! ## Instructions -/

theorem isPlain_scheduled {host : Host} {ts : List Task} (hts : ∀ y ∈ ts, y.isPlain = true) :
    ∀ y ∈ host.scheduled ts, y.isPlain = true := by
  cases host with
  | coop => exact hts
  | outside => exact isPlain_of_all rfl
  | native => exact isPlain_of_all rfl

theorem isPlain_waiting {host : Host} {ts : List Task} (hts : ∀ y ∈ ts, y.isPlain = true) :
    ∀ y ∈ host.waiting ts, y.isPlain = true := by
  cases host with
  | coop => exact hts
  | outside => exact isPlain_of_all rfl
  | native => exact isPlain_of_all rfl

/-- The only instruction that suspends by itself is the one that stops. -/
theorem isPlain_replyTasks (host : Host) (me : ThreadId) {i : Instr} (hi : i ≠ .stop) :
    ∀ y ∈ i.replyTasks host me, y.isPlain = true := by
  cases i with
  | stop => exact absurd rfl hi
  | lock | tryLock | unlock | sleep | wake | wakeAll | condWake | condWakeAll =>
      exact isPlain_primitive (isPlain_of_all rfl)
  | readLock | writeLock | tryReadLock | tryWriteLock | readUnlock | writeUnlock | releaseAny
  | snapshot | showTable =>
      exact isPlain_primitive (isPlain_of_all rfl)
  | showCell | ownMutex | ownLock => exact isPlain_primitive (isPlain_of_all rfl)
  | wakeup | spawn => exact isPlain_scheduled (isPlain_of_all rfl)
  | waitFor => exact isPlain_waiting (isPlain_of_all rfl)
  | yield | outsideWakeup | nestedRun | owner | sleepers | select =>
      cases host <;> exact isPlain_of_all rfl
  | _ => exact isPlain_of_all rfl

theorem isPlain_tasks {host : Host} {i : Instr} (hi : i ≠ .stop) (r : Reply) (memory : Memory) :
    ∀ y ∈ i.tasks host me r memory, y.isPlain = true := by
  have happend : ∀ {ts us : List Task}, (∀ y ∈ ts, y.isPlain = true) →
      (∀ y ∈ us, y.isPlain = true) → ∀ y ∈ ts ++ us, y.isPlain = true :=
    fun ht hu => List.forall_mem_append.mpr ⟨ht, hu⟩
  cases i with
  | scope o body =>
      refine isPlain_primitive (happend ?_ (isPlain_of_all rfl))
      cases o <;> exact isPlain_of_all rfl
  | loop n body =>
      cases n with
      | zero => simp [Instr.tasks]
      | succ n =>
          cases body with
          | nil => simp [Instr.tasks]
          | cons i body => exact happend isPlain_instr (isPlain_of_all rfl)
  | whilst c body =>
      simp only [Instr.tasks]
      split
      · exact happend isPlain_instr (isPlain_of_all rfl)
      · simp
  | update f => exact isPlain_replyTasks host me hi
  | say level text => exact isPlain_replyTasks host me hi
  | print text => exact isPlain_replyTasks host me hi
  | _ => exact happend (isPlain_replyTasks host me hi) (isPlain_of_all rfl)

theorem course_instr (i : Instr) (hp : m.Plain me) :
    Course me (m.perform me (.instr i)) ((m.perform me (.instr i)).stackOf me) := by
  by_cases hi : i = .stop
  · subst hi
    show Course me (m.push me _) ((m.push me _).stackOf me)
    rw [stackOf_push]
    have hrest : ∀ r : Reply, ∀ y ∈ Task.answer r :: .report "stop" :: m.stackOf me,
        y.isPlain = true :=
      fun _ => List.forall_mem_cons.mpr ⟨rfl, List.forall_mem_cons.mpr ⟨rfl, hp⟩⟩
    cases m.host with
    | coop => exact .suspend rfl trivial (.tail (.plain (hrest _)))
    | outside => exact .parked (.tail (.plain (hrest _)))
    | native => exact .parked (.tail (.plain (hrest _)))
  · exact .plain ((tame_push (isPlain_tasks hi _ _)).plain hp)

/-! ## All tasks -/

/-- A plain task of a thread with plain tasks before it. -/
theorem course_plain (hc : m.sched.Coherent) (ht : m.sched.turn = .held me)
    (hx : ∀ l, (m.locks.get l).isExclusive = true) (hh : ∀ id ∈ m.handles, m.Spawned id)
    {x : Task} (hplain : x.isPlain = true) (hp : m.Plain me) :
    Course me (m.perform me x) ((m.perform me x).stackOf me) := by
  have hlive : m.sched.isLive me = true := Sched.isLive_of_isRunning (hc.isRunning_of_held ht)
  cases hruns : x.changesRun with
  | true =>
      cases x with
      | suspend => cases hplain
      | drain => cases hplain
      | pause => exact .plain hp
      | spawn code => exact .plain (plain_spawn code hp)
      | exit => exact course_finish hp
      | abort text => exact course_abort hp
      | _ => cases hruns
  | false =>
      cases htame : x.isTame with
      | true => exact .plain (((perform_gentle hruns).2 htame).plain hp)
      | false =>
          cases x with
          | instr i => exact course_instr i hp
          | join id => exact course_join hp hh
          | stopUntil v x count => exact course_stopUntil hp
          | acquire name => exact course_acquire name (.plain hp)
          | sleepOn r name => exact course_sleepOn_public name hplain hp
          | requestRead l => exact course_requestRead hp (hx l)
          | requestWrite l => exact course_requestWrite hp
          | select entries timeout => exact course_select hp hlive
          | selectHere entries timeout => exact course_selectEntries hp hlive
          | sleepUntil r name v x count => exact absurd (hplain.symm.trans htame) (by simp)
          | awaitThread | awaitOwner | recheckRead | recheckWrite | collect => cases hplain
          | _ => cases htame

/-- The running thread stays on course with every task that it takes off its stack. -/
theorem Course.perform (hcourse : Course me m (x :: ts)) (hts : m.stackOf me = ts)
    (hc : m.sched.Coherent) (ht : m.sched.turn = .held me)
    (hx : ∀ l, (m.locks.get l).isExclusive = true) (hh : ∀ id ∈ m.handles, m.Spawned id) :
    Course me (m.perform me x) ((m.perform me x).stackOf me) := by
  cases hcourse with
  | parked hparked =>
      cases hparked with
      | tail htail =>
          cases htail with
          | plain hall =>
              have hp : m.Plain me := fun y hy => hall y (List.mem_cons_of_mem x (hts ▸ hy))
              exact course_plain hc ht hx hh (hall x List.mem_cons_self) hp
          | recheck hr hk hplain =>
              have hp : m.Plain me := fun y hy => hplain y (hts ▸ hy)
              cases x with
              | recheckRead l => exact course_recheckRead hp (hx l)
              | recheckWrite l => exact course_recheckWrite hp hk
              | _ => cases hr
      | wait hw hk hplain =>
          have hp : m.Plain me := fun y hy => hplain y (hts ▸ hy)
          cases x with
          | awaitThread id => exact course_awaitThread hp hk
          | collect => exact course_collect hp hk
          | drain => exact course_drain hc hp hk
          | _ => cases hw
      | acquire htail => exact course_acquire _ (hts ▸ htail)
      | awaitOwner hk htail => exact course_awaitOwner hk (hts ▸ htail)
      | @leave r name ts htail =>
          show Course me (m.leave me r) (m.stackOf me)
          rw [hts]
          exact .parked (.acquire (htail.of_locks rfl))
  | suspend _ _ hparked =>
      show Course me (m.onSched (Sched.stop me)) (m.stackOf me)
      rw [hts]
      exact .parked (hparked.mono fun _ => kept_onSched (Sched.sameWaits_stop me _))
  | @release name back r ts hpending htail =>
      obtain ⟨hrendez, hlocks⟩ := release_frame me name m
      show Course me (m.release me name) ((m.release me name).stackOf me)
      rw [stackOf_release, hts]
      exact .suspend rfl (pending_await hpending hrendez hlocks) (.leave (htail.of_locks hlocks))
  | sleepReader hq hr hplain =>
      have htail : Tail me m (m.stackOf me) := hts ▸ .recheck rfl trivial hplain
      exact course_sleepOn _ htail fun hmem => ⟨hmem, hq, hr⟩
  | sleepWriter hq hw hplain =>
      have htail : Tail me m (m.stackOf me) := hts ▸ .recheck rfl (.inl hq) hplain
      exact course_sleepOn _ htail fun hmem => ⟨hmem, hq, hw⟩

end Machine

end Baton
