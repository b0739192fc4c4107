import Baton.Proofs.Program.Await

/-!
# Machine: what the tasks do

Every task of the running thread is gentle unless it gives the turn away or starts a thread: it
leaves the run alone but for wakeups, and no other thread is disturbed, since what that one waits
for stays pending unless the same task wakes it. The wakeups of a hand-over, of a rendezvous and of
a granted lock are each shown to reach everybody whose wait they end.

Most gentle tasks are tame: they put nothing on the stack that needs care.
-/

namespace Baton

namespace Machine

open Sched (Quiet)

variable {b : ThreadId → Prop} {me : ThreadId} {m m' m'' : Machine}

/-- What a task of `me` does to the scheduler and to the other threads. -/
structure Gentle (me : ThreadId) (m m' : Machine) : Prop where
  quiet : Quiet m.sched m'.sched
  spares : Spares (· ≠ me) m m'

/-- A gentle task that puts plain tasks only on the stack. -/
structure Tame (me : ThreadId) (m m' : Machine) : Prop extends Gentle me m m' where
  fresh : ∀ x ∈ m'.stackOf me, x ∈ m.stackOf me ∨ x.isPlain = true

theorem Tame.plain (h : Tame me m m') (hp : m.Plain me) : m'.Plain me :=
  fun x hx => (h.fresh x hx).elim (hp x) id

theorem Gentle.trans (h : Gentle me m m') (h' : Gentle me m' m'') : Gentle me m m'' :=
  ⟨h.quiet.trans h'.quiet, h.spares.trans h'.spares⟩

theorem Tame.refl (me : ThreadId) (m : Machine) : Tame me m m :=
  ⟨⟨.refl _, .refl _ m⟩, fun _ => .inl⟩

theorem Tame.trans (h : Tame me m m') (h' : Tame me m' m'') : Tame me m m'' :=
  ⟨h.toGentle.trans h'.toGentle, fun x hx => (h'.fresh x hx).elim (h.fresh x) .inr⟩

/-! ## The thread's own part and the memory -/

/-- The stack after a change of the thread's own part. -/
theorem stackOf_onThread (me : ThreadId) (f : Thread → Thread) (m : Machine) :
    stackOf me { m with threads := m.threads.update me f } = (f (m.threads.get me)).stack :=
  congrArg Thread.stack ((Store.get_update ..).trans (if_pos rfl))

@[simp] theorem stackOf_push (me : ThreadId) (ts : List Task) (m : Machine) :
    (m.push me ts).stackOf me = ts ++ m.stackOf me :=
  stackOf_onThread ..

@[simp] theorem stackOf_answer (me : ThreadId) (r : Reply) (m : Machine) :
    (m.answer me r).stackOf me = m.stackOf me :=
  stackOf_onThread ..

theorem stackOf_panic (me : ThreadId) (text : String) (m : Machine) :
    (m.panic me text).stackOf me = (m.stackOf me).filter Task.isCleanup ++ [.abort text] :=
  stackOf_onThread ..

/-- The reply after a change of the thread's own part. -/
theorem replyOf_onThread (me : ThreadId) (f : Thread → Thread) (m : Machine) :
    replyOf me { m with threads := m.threads.update me f } = (f (m.threads.get me)).reply :=
  congrArg Thread.reply ((Store.get_update ..).trans (if_pos rfl))

theorem replyOf_push (me : ThreadId) (ts : List Task) (m : Machine) :
    (m.push me ts).replyOf me = m.replyOf me :=
  replyOf_onThread ..

theorem replyOf_setStack (me : ThreadId) (ts : List Task) (m : Machine) :
    (m.setStack me ts).replyOf me = m.replyOf me :=
  replyOf_onThread ..

theorem replyOf_answer (me : ThreadId) (r : Reply) (m : Machine) :
    (m.answer me r).replyOf me = r :=
  replyOf_onThread ..

theorem replyOf_panic (me : ThreadId) (text : String) (m : Machine) :
    (m.panic me text).replyOf me = m.replyOf me :=
  replyOf_onThread ..

/-- A task that is taken off the stack and does not clean up leaves the guards where they are. -/
theorem guard?_setStack {x : Task} {ts : List Task} (hstack : m.stackOf me = x :: ts)
    (hx : x.isCleanup = false) : (m.setStack me ts).guard? me = m.guard? me := by
  have hts : ((m.setStack me ts).threads.get me).stack = ts := stackOf_onThread ..
  rw [guard?, guard?, hts, show (m.threads.get me).stack = x :: ts from hstack,
    List.findSome?_cons]
  cases x <;> first | rfl | cases hx

theorem gentle_onThread (me : ThreadId) (f : Thread → Thread) (m : Machine) :
    Gentle me m { m with threads := m.threads.update me f } :=
  ⟨.refl _, spares_onThread me f m⟩

theorem tame_onThread {f : Thread → Thread} (hf : ∀ t, (f t).stack = t.stack) :
    Tame me m { m with threads := m.threads.update me f } := by
  refine ⟨gentle_onThread me f m, fun x hx => ?_⟩
  rw [stackOf_onThread, hf] at hx
  exact .inl hx

theorem gentle_push (me : ThreadId) (ts : List Task) (m : Machine) : Gentle me m (m.push me ts) :=
  gentle_onThread me _ m

theorem tame_push {ts : List Task} (hts : ∀ x ∈ ts, x.isPlain = true) :
    Tame me m (m.push me ts) := by
  refine ⟨gentle_push me ts m, fun x hx => ?_⟩
  rw [stackOf_push] at hx
  exact (List.mem_append.mp hx).symm.imp_right (hts x)

theorem tame_answer (me : ThreadId) (r : Reply) (m : Machine) : Tame me m (m.answer me r) :=
  tame_onThread fun _ => rfl

theorem tame_report (me : ThreadId) (name : String) (m : Machine) :
    Tame me m (m.report me name) := by
  have h : Tame me m _ := tame_onThread (f := fun t => { t with produced := t.produced + 1 })
    fun _ => rfl
  exact ⟨⟨h.quiet, { h.spares with }⟩, h.fresh⟩

theorem isPlain_of_isCleanup {x : Task} (h : x.isCleanup = true) : x.isPlain = true := by
  cases x <;> first | rfl | cases h

/-- A panic leaves what cleans up, which is plain. -/
theorem plain_panic (me : ThreadId) (text : String) (m : Machine) : (m.panic me text).Plain me := by
  intro x hx
  rw [stackOf_panic] at hx
  rcases List.mem_append.mp hx with hx | hx
  · exact isPlain_of_isCleanup (List.mem_filter.mp hx).2
  · rw [List.mem_singleton.mp hx]
    rfl

theorem tame_panic (me : ThreadId) (text : String) (m : Machine) : Tame me m (m.panic me text) :=
  ⟨gentle_onThread me _ m, fun x hx => .inr (plain_panic me text m x hx)⟩

theorem tame_onSched {s : Sched} (hq : Quiet m.sched s) (hs : Sched.Spares (· ≠ me) m.sched s) :
    Tame me m { m with sched := s } :=
  ⟨⟨hq, spares_onSched hs⟩, fun _ => .inl⟩

theorem tame_note {n : Notice} (hn : ∀ t, n ≠ .stale t) : Tame me m (m.note n) :=
  tame_onSched (Sched.sameRun_note hn).quiet (Sched.spares_note n _)

theorem tame_memory (memory : Memory) (m : Machine) : Tame me m { m with memory } :=
  ⟨⟨.refl _, { Spares.refl _ m with }⟩, fun _ => .inl⟩

/-! ## Mutexes -/

theorem tame_setMutex {name : MutexName} {x : Mutex}
    (hclaiming : ∀ t, t ≠ me →
      t ∈ (m.mutexes.get name).waiting ∨ (m.mutexes.get name).owner = some t →
      t ∈ x.waiting ∨ x.owner = some t)
    (hpending : ∀ t, t ≠ me →
      t ∈ (m.mutexes.get name).waiting ∧ (m.mutexes.get name).owner ≠ some t →
      t ∈ x.waiting ∧ x.owner ≠ some t) : Tame me m (m.setMutex name x) :=
  ⟨⟨.refl _, spares_mutex (.refl _ m.sched) hclaiming fun t ht _ => hpending t ht⟩, fun _ => .inl⟩

theorem tame_request (me : ThreadId) (name : MutexName) (m : Machine) :
    Tame me m (m.setMutex name ((m.mutexes.get name).request me).2) := by
  refine tame_setMutex (fun t ht hk => ?_) (fun t ht hp => ?_) <;> unfold Mutex.request <;> split
  · exact hk
  · split
    · rename_i hfree
      exact hk.imp_right fun ho => absurd ho (by simp [hfree])
    · exact hk.imp_left (List.mem_append_left _)
  · exact hp
  · split
    · exact ⟨hp.1, fun ho => ht (Option.some.inj ho).symm⟩
    · exact ⟨List.mem_append_left _ hp.1, hp.2⟩

theorem gentle_acquire (name : MutexName) : Gentle me m (m.acquire me name) := by
  unfold acquire
  dsimp only
  split
  · exact (tame_request me name m).toGentle
  · exact (tame_request me name m).toGentle.trans (gentle_push me _ _)
  · exact ((tame_request me name m).trans (tame_panic me _ _)).toGentle

theorem gentle_awaitOwner (name : MutexName) : Gentle me m (m.awaitOwner me name) := by
  unfold awaitOwner
  split
  · exact (Tame.refl me m).toGentle
  · exact gentle_push me _ m

theorem tame_tryAcquire (name : MutexName) : Tame me m (m.tryAcquire me name) := by
  have hset : Tame me m (m.setMutex name ((m.mutexes.get name).tryTake me).2) := by
    refine tame_setMutex (fun t ht hk => ?_) (fun t ht hp => ?_) <;>
      unfold Mutex.tryTake <;> split
    · rename_i hfree
      exact hk.imp_right fun ho => absurd ho (by simp [hfree])
    · exact hk
    · exact ⟨hp.1, fun ho => ht (Option.some.inj ho).symm⟩
    · exact hp
  exact hset.trans (tame_answer me _ _)

/-- A waiter is handed the mutex together with a wakeup, or keeps its place behind the one that is
handed it. -/
theorem tame_release (name : MutexName) : Tame me m (m.release me name) := by
  unfold release
  dsimp only
  split
  · rename_i hown
    have hme : (m.mutexes.get name).owner = some me := by simpa [Mutex.isOwnedBy] using hown
    have hclaiming : ∀ t, t ≠ me →
        t ∈ (m.mutexes.get name).waiting ∨ (m.mutexes.get name).owner = some t →
        t ∈ (m.mutexes.get name).waiting.tail ∨ (m.mutexes.get name).waiting.head? = some t := by
      rintro t ht (hw | ho)
      · cases hlist : (m.mutexes.get name).waiting with
        | nil => simp [hlist] at hw
        | cons next rest =>
            rw [hlist] at hw
            exact (List.mem_cons.mp hw).symm.imp_right fun he => congrArg some he.symm
      · exact absurd (Option.some.inj (hme.symm.trans ho)).symm ht
    split
    · rename_i next hnext
      have hquiet : Quiet m.sched ((m.sched.note (.mutexHanded me next)).wakeup next) :=
        .wakeup next (Sched.sameRun_note (by simp)).quiet
      refine ⟨⟨hquiet, spares_mutex ((Sched.spares_note _ _).trans (Sched.spares_wakeup next _))
        hclaiming fun t ht hstop hp => ?_⟩, fun _ => .inl⟩
      have hne : t ≠ next := by
        rintro rfl
        rw [Sched.isStopped_wakeup] at hstop
        simp at hstop
      have hhead : (m.mutexes.get name).waiting.head? ≠ some t := by
        rw [show (m.mutexes.get name).waiting.head? = some next from hnext]
        exact fun he => hne (Option.some.inj he).symm
      exact ⟨(hclaiming t ht (.inl hp.1)).resolve_right hhead, hhead⟩
    · rename_i hnone
      apply tame_setMutex hclaiming
      intro t ht hp
      have hempty : (m.mutexes.get name).waiting = [] := List.head?_eq_none_iff.mp hnone
      rw [hempty] at hp
      exact absurd hp.1 List.not_mem_nil
  · exact tame_note (by simp)

/-! ## Rendezvous -/

theorem tame_enlist (me : ThreadId) (r : RendezName) (m : Machine) :
    Tame me m (m.setRendez r ((m.rendezvous.get r).enlist me)) :=
  ⟨⟨.refl _, spares_rendez (.refl _ m.sched) fun _ _ _ hmem => List.mem_append_left _ hmem⟩,
    fun _ => .inl⟩

theorem gentle_sleepOn (r : RendezName) (name : MutexName) : Gentle me m (m.sleepOn me r name) :=
  (tame_enlist me r m).toGentle.trans (gentle_push me _ _)

theorem tame_leave (r : RendezName) : Tame me m (m.leave me r) :=
  ⟨⟨.refl _, spares_rendez (.refl _ m.sched) fun _ ht _ hmem => Rendez.mem_leave.mpr ⟨hmem, ht⟩⟩,
    fun _ => .inl⟩

/-- A sleeper is picked together with a wakeup, or keeps its place behind the one who is. -/
theorem tame_signal (r : RendezName) : Tame me m (m.signal r) := by
  unfold signal Rendez.pick
  dsimp only
  split
  · rename_i next hnext
    refine ⟨⟨Sched.quiet_wakeup next _, spares_rendez (Sched.spares_wakeup next m.sched)
      fun t _ hstop hmem => ?_⟩, fun _ => .inl⟩
    cases hlist : (m.rendezvous.get r).sleepers with
    | nil => simp [hlist] at hmem
    | cons first rest =>
        rw [hlist] at hnext hmem
        obtain rfl : first = next := Option.some.inj hnext
        rcases List.mem_cons.mp hmem with rfl | hmem
        · rw [Sched.isStopped_wakeup] at hstop
          simp at hstop
        · exact hmem
  · rename_i hnone
    refine ⟨⟨.refl _, spares_rendez (.refl _ m.sched) fun t _ _ hmem => ?_⟩, fun _ => .inl⟩
    rw [List.head?_eq_none_iff.mp hnone] at hmem
    exact absurd hmem List.not_mem_nil

/-- After a broadcast nobody of the sleepers is stopped. -/
theorem isStopped_broadcast {t : ThreadId} {r : RendezName}
    (hstop : (m.broadcast r).sched.isStopped t = true) :
    t ∉ (m.rendezvous.get r).sleepers := by
  have hwoken := (Sched.isStopped_wakeAll (m.rendezvous.get r).sleepers t m.sched).symm.trans hstop
  simp only [Bool.and_eq_true, decide_eq_true_eq] at hwoken
  exact hwoken.2

theorem tame_broadcast (r : RendezName) : Tame me m (m.broadcast r) :=
  ⟨⟨(Quiet.refl _).wakeAll _, spares_rendez (Sched.spares_wakeAll _ m.sched)
    fun _ _ hstop hmem => absurd hmem (isStopped_broadcast hstop)⟩, fun _ => .inl⟩

theorem isPlain_primitive {host : Host} {ts : List Task} (hts : ∀ x ∈ ts, x.isPlain = true) :
    ∀ x ∈ host.primitive ts, x.isPlain = true := by
  cases host with
  | outside => exact isPlain_of_all rfl
  | coop => exact hts
  | native => exact hts

theorem gentle_sleepUntil (r : RendezName) (name : MutexName) (v : Nat) (x : Int) (count : Nat) :
    Gentle me m (m.sleepUntil me r name v x count) := by
  unfold sleepUntil
  split
  · exact (tame_answer me _ m).toGentle
  · exact gentle_push me _ m

theorem tame_sleepUntil {r : RendezName} (hr : r.isPublic = true) (name : MutexName) (v : Nat)
    (x : Int) (count : Nat) : Tame me m (m.sleepUntil me r name v x count) := by
  unfold sleepUntil
  split
  · exact tame_answer me _ m
  · exact tame_push (isPlain_primitive (by simp [Task.isPlain, hr]))

/-! ## Reader/writer locks -/

/-- A section that grants the lock to queued threads wakes all that sleep for it, so whoever still
is stopped has not been granted it. -/
theorem tame_wakeGranted {l : LockName} {h : Handoff} {x : RwState}
    (hspares : ∀ t, t ≠ me → RwState.Spares t h (m.locks.get l) x)
    (hexclusive : (m.locks.get l).isExclusive = true → x.isExclusive = true) :
    Tame me m ((m.setLock l x).wakeGranted l h) := by
  have hwriting := fun t ht => (hspares t ht).writing
  cases h with
  | nobody =>
      have hset : Spares (· ≠ me) m (m.setLock l x) :=
        (Spares.refl _ m).setLock rfl hexclusive hwriting
          (fun t ht _ hp => (hspares t ht).waits_reader (by simp) hp.2)
          fun t ht _ hp => (hspares t ht).waits_writer (by simp) hp.2
      exact ⟨⟨.refl _, hset⟩, fun _ => .inl⟩
  | writer next =>
      have hwake : Tame me m ((m.note (.writeHanded next)).broadcast (.writers l)) :=
        (tame_note (by simp)).trans (tame_broadcast _)
      exact ⟨⟨hwake.quiet, hwake.spares.setLock rfl hexclusive hwriting
        (fun t ht _ hp => (hspares t ht).waits_reader (by simp) hp.2)
        fun t _ hstop hp => absurd hp.1 (isStopped_broadcast (m := m.note _) hstop)⟩, fun _ => .inl⟩
  | readers count =>
      have hwake : Tame me m ((m.note (.readersWoken count)).broadcast (.readers l)) :=
        (tame_note (by simp)).trans (tame_broadcast _)
      exact ⟨⟨hwake.quiet, hwake.spares.setLock rfl hexclusive hwriting
        (fun t _ hstop hp => absurd hp.1 (isStopped_broadcast (m := m.note _) hstop))
        fun t ht _ hp => (hspares t ht).waits_writer (by simp) hp.2⟩, fun _ => .inl⟩

/-- A section that grants the lock to nobody else. -/
theorem tame_setLock {l : LockName} {x : RwState}
    (hspares : ∀ t, t ≠ me → RwState.Spares t .nobody (m.locks.get l) x)
    (hexclusive : (m.locks.get l).isExclusive = true → x.isExclusive = true) :
    Tame me m (m.setLock l x) :=
  tame_wakeGranted hspares hexclusive

theorem tame_closeSection (l : LockName) : Tame me m (m.closeSection me l) := by
  unfold closeSection
  split
  · exact tame_push (isPlain_of_all rfl)
  · exact tame_panic me _ m

theorem gentle_requestRead (l : LockName) : Gentle me m (m.requestRead me l) := by
  have hset : Tame me m (m.setLock l ((m.locks.get l).requestRead me).2) :=
    tame_setLock (fun _ ht => RwState.spares_requestRead ht) RwState.isExclusive_requestRead
  have hnoted : ∀ {n : Notice} (r : Reply), (∀ t, n ≠ .stale t) → Tame me m
      (((m.setLock l ((m.locks.get l).requestRead me).2).note n).answer me r) :=
    fun r hn => (hset.trans (tame_note hn)).trans (tame_answer me r _)
  unfold requestRead
  dsimp only
  split
  · exact (hset.trans (tame_answer me _ _)).toGentle.trans (gentle_push me _ _)
  · exact (hnoted _ (by simp)).toGentle.trans (gentle_push me _ _)
  · exact (hnoted _ (by simp)).toGentle.trans (gentle_push me _ _)

theorem tame_recheckRead_setLock (me : ThreadId) (l : LockName) (m : Machine) :
    Tame me m (m.setLock l ((m.locks.get l).recheckRead me).2) :=
  tame_setLock (fun _ ht => RwState.spares_recheckRead ht) RwState.isExclusive_recheckRead

theorem gentle_recheckRead (l : LockName) : Gentle me m (m.recheckRead me l) :=
  (tame_recheckRead_setLock me l m).toGentle.trans (gentle_push me _ _)

theorem gentle_requestWrite (l : LockName) : Gentle me m (m.requestWrite me l) := by
  have hset : Tame me m (m.setLock l ((m.locks.get l).requestWrite me).2) :=
    tame_setLock (fun _ ht => RwState.spares_requestWrite ht) RwState.isExclusive_requestWrite
  have hnoted : ∀ {n : Notice} (r : Reply), (∀ t, n ≠ .stale t) → Tame me m
      (((m.setLock l ((m.locks.get l).requestWrite me).2).note n).answer me r) :=
    fun r hn => (hset.trans (tame_note hn)).trans (tame_answer me r _)
  unfold requestWrite
  dsimp only
  split
  · exact (hset.trans (tame_answer me _ _)).toGentle.trans (gentle_push me _ _)
  · exact (hnoted _ (by simp)).toGentle.trans (gentle_push me _ _)
  · exact (hnoted _ (by simp)).toGentle.trans (gentle_push me _ _)

theorem gentle_recheckWrite (l : LockName) : Gentle me m (m.recheckWrite me l) := by
  have hset : Tame me m (m.setLock l ((m.locks.get l).recheckWrite me).2) :=
    tame_setLock (fun _ ht => RwState.spares_recheckWrite ht) RwState.isExclusive_recheckWrite
  exact hset.toGentle.trans (gentle_push me _ _)

theorem tame_tryRead (l : LockName) : Tame me m (m.tryRead me l) := by
  have hset : Tame me m (m.setLock l ((m.locks.get l).tryRead me).2) :=
    tame_setLock (fun _ ht => RwState.spares_tryRead ht) RwState.isExclusive_tryRead
  exact (hset.trans (tame_answer me _ _)).trans (tame_push (isPlain_of_all rfl))

theorem tame_tryWrite (l : LockName) : Tame me m (m.tryWrite me l) := by
  have hset : Tame me m (m.setLock l ((m.locks.get l).tryWrite me).2) :=
    tame_setLock (fun _ ht => RwState.spares_tryWrite ht) RwState.isExclusive_tryWrite
  exact (hset.trans (tame_answer me _ _)).trans (tame_push (isPlain_of_all rfl))

theorem tame_releaseRead (l : LockName) : Tame me m (m.releaseRead me l) := by
  unfold releaseRead
  split
  · rename_i h x hout
    have hgranted : Tame me m ((m.setLock l x).wakeGranted l h) :=
      tame_wakeGranted (fun _ ht => RwState.spares_releaseRead ht hout)
        fun hx => RwState.isExclusive_releaseRead hx hout
    exact (hgranted.trans (tame_answer me _ _)).trans (tame_push (isPlain_of_all rfl))
  · exact ((tame_note (by simp)).trans (tame_answer me _ _)).trans
      (tame_push (isPlain_of_all rfl))

theorem tame_releaseWrite (l : LockName) : Tame me m (m.releaseWrite me l) := by
  unfold releaseWrite
  split
  · rename_i h x hout
    have hgranted : Tame me m ((m.setLock l x).wakeGranted l h) :=
      tame_wakeGranted (fun _ ht => RwState.spares_releaseWrite ht hout)
        fun _ => RwState.isExclusive_releaseWrite hout
    exact (hgranted.trans (tame_answer me _ _)).trans (tame_push (isPlain_of_all rfl))
  · exact ((tame_note (by simp)).trans (tame_answer me _ _)).trans
      (tame_push (isPlain_of_all rfl))

theorem tame_releaseHeld (l : LockName) : Tame me m (m.releaseHeld me l) := by
  apply tame_push
  intro x hx
  simp only [Task.section, List.mem_cons, List.not_mem_nil, or_false] at hx
  rcases hx with rfl | rfl | rfl
  · rfl
  · rfl
  · split <;> rfl

/-! ## Guards -/

theorem isPlain_instr {body : List Instr} : ∀ x ∈ body.map Task.instr, x.isPlain = true := by
  intro x hx
  obtain ⟨i, -, rfl⟩ := List.mem_map.mp hx
  rfl

theorem tame_enter (name : String) (g : Guard) (body : List Instr) :
    Tame me m (m.enter me name g body) := by
  unfold enter
  split
  · exact tame_report me name m
  · refine ((tame_answer me _ m).trans (tame_report me name _)).trans (tame_push fun x hx => ?_)
    rcases List.mem_append.mp hx with hx | hx
    · exact isPlain_instr x hx
    · simp only [List.mem_cons, List.not_mem_nil, or_false] at hx
      rcases hx with rfl | rfl | rfl <;> rfl

theorem tame_drop (g : Guard) : Tame me m (m.drop me g) := by
  unfold drop
  apply tame_push
  cases g <;> exact isPlain_of_all rfl

theorem tame_checkDrop (exclusive : Bool) : Tame me m (m.checkDrop me exclusive) := by
  unfold checkDrop
  split
  · exact tame_note (by simp)
  · exact .refl me m

theorem tame_withGuard {f : Guard → Machine → Machine} (hf : ∀ g, Tame me m (f g m)) :
    Tame me m (m.withGuard me f) := by
  unfold withGuard
  split
  · exact hf _
  · exact tame_answer me _ m

theorem tame_pushList (x : Int) : Tame me m (m.pushList me x) := by
  apply tame_withGuard
  intro g
  dsimp only
  split
  · exact (tame_memory _ m).trans (tame_answer me _ _)
  · exact tame_answer me _ m

theorem tame_popList : Tame me m (m.popList me) := by
  apply tame_withGuard
  intro g
  dsimp only
  split
  · exact (tame_memory _ m).trans (tame_answer me _ _)
  · exact tame_answer me _ m

/-- The sleep on a condition is one on a public rendezvous. -/
theorem tame_condSleepWith (k c : Nat) {after : List Task}
    (hafter : ∀ x ∈ after, x.isPlain = true) : Tame me m (m.condSleepWith me k c after) := by
  unfold condSleepWith
  split
  · exact (tame_answer me _ m).trans (tame_push (List.forall_mem_cons.mpr ⟨rfl, hafter⟩))
  · exact (tame_note (by simp)).trans (tame_answer me _ _)

theorem tame_condSleep (k : Nat) : Tame me m (m.condSleep me k) := by
  unfold condSleep
  split
  · exact tame_condSleepWith k _ (by simp)
  · exact tame_answer me _ m

theorem tame_condSleepWhile (k : Nat) (test : Test) : Tame me m (m.condSleepWhile me k test) := by
  unfold condSleepWhile
  split
  · split
    · exact tame_panic me _ m
    · rename_i again memory _
      dsimp only
      split
      · exact (tame_memory memory m).trans (tame_condSleepWith k _ (isPlain_of_all rfl))
      · exact (tame_memory memory m).trans (tame_answer me _ _)
  · exact tame_answer me _ m

theorem tame_showCell (c : Nat) : Tame me m (m.showCell me c) := by
  unfold showCell
  split
  · exact tame_answer me _ m
  · exact (tame_answer me _ m).trans (tame_push (isPlain_of_all rfl))

theorem tame_showLock (l : LockName) : Tame me m (m.showLock me l) := by
  unfold showLock
  split
  · exact tame_answer me _ m
  · exact tame_push (isPlain_of_all rfl)

/-! ## Threads -/

/-- Taking the handle of a thread away. -/
theorem tame_takeHandle (me id : ThreadId) (m : Machine) :
    Tame me m { m with handles := m.handles.erase id } :=
  ⟨⟨.refl _, { Spares.refl _ m with handles := fun _ hid => .inl (List.mem_of_mem_erase hid) }⟩,
    fun _ => .inl⟩

theorem gentle_join (id : ThreadId) : Gentle me m (m.join me id) := by
  unfold join
  split
  · exact (tame_takeHandle me id m).toGentle.trans (gentle_push me _ _)
  · exact (tame_answer me _ m).toGentle

theorem tame_addJoiner (id : ThreadId) : Tame me m (m.onSched (Sched.addJoiner id me)) :=
  tame_onSched (Sched.sameRun_addJoiner id me).quiet (Sched.spares_addJoiner id me _)

theorem gentle_awaitThread (id : ThreadId) : Gentle me m (m.awaitThread me id) := by
  unfold awaitThread
  split
  · exact (tame_answer me _ m).toGentle
  · exact (tame_addJoiner id).toGentle.trans (gentle_push me _ _)

theorem tame_joinOutside (id : ThreadId) : Tame me m (m.joinOutside me id) := by
  unfold joinOutside
  split
  · exact (tame_takeHandle me id m).trans (tame_answer me _ _)
  · exact tame_answer me _ m

theorem tame_wake (id : ThreadId) : Tame me m (m.wake me id) :=
  (tame_answer me _ m).trans (tame_onSched (Sched.quiet_wakeup id _) (Sched.spares_wakeup id _))

theorem gentle_stopUntil (v : Nat) (x : Int) (count : Nat) :
    Gentle me m (m.stopUntil me v x count) := by
  unfold stopUntil
  split
  · exact (tame_answer me _ m).toGentle
  · split
    · exact gentle_push me _ m
    · exact (tame_answer me _ m).toGentle

/-! ## Descriptors -/

theorem tame_elapse (d : Span) : Tame me m (m.onSched (Sched.elapse d)) :=
  tame_onSched (Sched.sameRun_elapse d).quiet (Sched.spares_elapse d _)

theorem tame_await {w : Waiter Descriptor} (hw : w.id = me) :
    Tame me m (m.onSched (Sched.await w)) :=
  tame_onSched (Sched.sameRun_await w).quiet (Sched.spares_await fun hne => hne hw)

theorem gentle_selectEntries (entries : List (PollEntry Descriptor)) (timeout : Option Span) :
    Gentle me m (m.selectEntries me entries timeout) := by
  have hpolled : Tame me m (m.onSched (Sched.elapse Sched.pollCost)) := tame_elapse _
  have hawait : ∀ deadline : Option Instant, Gentle me m
      (((m.onSched (Sched.elapse Sched.pollCost)).onSched
        (Sched.await ⟨me, entries, deadline⟩)).push me [.collect]) :=
    fun deadline => (hpolled.trans (tame_await rfl)).toGentle.trans (gentle_push me _ _)
  unfold selectEntries
  dsimp only
  split
  · exact (hpolled.trans (tame_answer me _ _)).toGentle
  · split
    · exact (hpolled.trans (tame_answer me _ _)).toGentle
    · split
      · exact hawait _
      · split
        · exact hawait _
        · exact (hpolled.trans (tame_panic me _ _)).toGentle

theorem tame_pollHere (entries : List (PollEntry Descriptor)) (timeout : Option Span) :
    Tame me m (m.pollHere me entries timeout) := by
  unfold pollHere
  split
  · exact tame_panic me _ m
  · exact tame_answer me _ m
  · split
    · exact tame_answer me _ m
    · exact tame_push (isPlain_of_all rfl)

theorem gentle_select (entries : List (Descriptor × Interest)) (timeout : Option Span) :
    Gentle me m (m.select me entries timeout) := by
  unfold select
  split
  · exact (tame_pollHere _ timeout).toGentle
  · exact gentle_selectEntries _ timeout

theorem gentle_collect : Gentle me m (m.collect me) := by
  unfold collect
  split
  · exact gentle_push me _ m
  · have htake : Tame me m (m.onSched (Sched.takeDelivery me)) :=
      tame_onSched (Sched.sameRun_takeDelivery me).quiet
        (Sched.spares_takeDelivery fun hne => hne rfl)
    exact (htake.trans (tame_answer me _ _)).toGentle

theorem tame_forgetFound : Tame me m (m.forgetFound me) := by
  unfold forgetFound
  split
  · exact .refl me m
  · exact tame_answer me _ m

theorem tame_transferRound (c : PipeCall) : Tame me m (m.transferRound me c) := by
  unfold transferRound
  dsimp only
  split
  · exact tame_push (isPlain_of_all rfl)
  · exact tame_push (isPlain_of_all rfl)
  · exact tame_answer me _ m

theorem tame_transfer (c : PipeCall) : Tame me m (m.transfer me c) := by
  unfold transfer
  split
  · exact tame_transferRound c
  · exact tame_answer me _ m

theorem tame_setPipe (index : Nat) (x : Pipe) : Tame me m (m.setPipe index x) :=
  ⟨⟨.refl _, { Spares.refl _ m with }⟩, fun _ => .inl⟩

theorem tame_attempt (c : PipeCall) : Tame me m (m.attempt me c) := by
  unfold attempt
  split
  · exact .refl me m
  · split
    · exact tame_push (isPlain_of_all rfl)
    · dsimp only
      split
      · exact (tame_setPipe _ _).trans (tame_answer me _ _)
      · exact (tame_setPipe _ _).trans (tame_answer me _ _)
      · exact (tame_setPipe _ _).trans (tame_push (isPlain_of_all rfl))
      · exact (tame_setPipe _ _).trans (tame_push (isPlain_of_all rfl))

end Machine

end Baton
