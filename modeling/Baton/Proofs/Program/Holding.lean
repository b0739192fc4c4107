import Baton.Proofs.Program.Scopes

/-!
# Machine: guards that are held

A thread with scoped code holds guards: it has the stakes that its stack tells. Every task of the
thread keeps that, whether it goes on or panics, and it opens or closes no guard but the innermost.
-/

namespace Baton

/-- The start of a thread's code, or something that a thread does with a guard. -/
inductive GuardEvent where
  | began (code : List Instr)
  | obtained (g : Guard)
  | released (g : Guard)

/-- The open guards after an event, the innermost first; `none` if another guard than the innermost
is released. -/
def GuardEvent.after? (gs : List Guard) : GuardEvent → Option (List Guard)
  | began _ => some gs
  | obtained g => some (g :: gs)
  | released g => match gs with
    | [] => none
    | g' :: gs => if g = g' then some gs else none

/-- The open guards after some events, if each guard was released as the innermost one. -/
def nesting (gs : List Guard) (es : List GuardEvent) : Option (List Guard) :=
  es.foldlM GuardEvent.after? gs

@[simp] theorem nesting_nil (gs : List Guard) : nesting gs [] = some gs := rfl

@[simp] theorem nesting_released (gs : List Guard) (g : Guard) :
    nesting (g :: gs) [.released g] = some gs := by
  simp [nesting, GuardEvent.after?]

theorem nesting_append {gs gs' : List Guard} {es : List GuardEvent} (h : nesting gs es = some gs')
    (es' : List GuardEvent) : nesting gs (es ++ es') = nesting gs' es' := by
  rw [nesting, List.foldlM_append, show es.foldlM GuardEvent.after? gs = some gs' from h]
  rfl

namespace Machine

open RwState (IsQueued)

variable {me t : ThreadId} {m m' : Machine} {x : Task} {ts us : List Task} {r : Reply}
  {ks ks' : List Stake} {g : Guard} {gs : List Guard} {name : MutexName} {l : LockName}
  {side : RwSide}

/-- A guard is obtained unless the reply says otherwise. -/
def obtaining (g : Guard) (r : Reply) : List GuardEvent :=
  if r.isRefusal then [] else [.obtained g]

/-- What a thread does with guards when it carries out a task. The task has been taken off the
stack. -/
def guardEvents (me : ThreadId) (m : Machine) : Task → List GuardEvent
  | .enter _ g _ => obtaining g (m.replyOf me)
  | .showCell c => obtaining (.cell c) (m.replyOf me)
  | .showLock l => obtaining (.shared l) (m.replyOf me)
  | .release name => (name.freed? (m.stackOf me)).toList.map .released
  | .releaseRead l => [.released (.shared l)]
  | .releaseWrite l => [.released (.exclusive l)]
  | _ => []

/-- The thread has a stake in what it obtains or releases. -/
theorem Due.stake_mem (h : Due (x :: m.stackOf me) (m.replyOf me) ks gs)
    (hg : .obtained g ∈ m.guardEvents me x ∨ .released g ∈ m.guardEvents me x) : g.stake ∈ ks := by
  have hobtains : ∀ {g' : Guard} {ts : List Task}, Obtains g' ts (m.replyOf me) ks gs →
      (.obtained g ∈ obtaining g' (m.replyOf me) ∨ .released g ∈ obtaining g' (m.replyOf me)) →
      g.stake ∈ ks := by
    rintro g' ts ⟨-, rfl⟩ hg
    unfold obtaining at hg
    split at hg
    · simp at hg
    · rename_i hr
      obtain rfl : g = g' := by simpa using hg
      rw [if_neg hr]
      exact List.mem_cons_self
  cases x with
  | enter n g' body => exact hobtains h.2 hg
  | showCell c => exact hobtains h hg
  | showLock l => exact hobtains h hg
  | release name =>
      obtain ⟨ks', gs', rfl, -⟩ := h
      obtain ⟨i, rfl, rfl⟩ := MutexName.eq_cell_of_freed? (by simpa [guardEvents] using hg)
      exact List.mem_cons_self
  | releaseRead l =>
      obtain ⟨ks', gs', rfl, -⟩ := h
      obtain rfl : g = .shared l := by simpa [guardEvents] using hg
      exact List.mem_cons_of_mem _ List.mem_cons_self
  | releaseWrite l =>
      obtain ⟨ks', gs', rfl, -⟩ := h
      obtain rfl : g = .exclusive l := by simpa [guardEvents] using hg
      exact List.mem_cons_of_mem _ List.mem_cons_self
  | _ => simp [guardEvents] at hg

/-- The thread has the guards `gs` open, and the stakes that its stack tells. -/
def Holding (t : ThreadId) (gs : List Guard) (m : Machine) : Prop :=
  ∃ ks, Due (m.stackOf t) (m.replyOf t) ks gs ∧ m.Owes t ks

/-- A task of `me` keeps what is held, and opens or closes the innermost guard at most. -/
def Nests (me : ThreadId) (gs : List Guard) (es : List GuardEvent) (m' : Machine) : Prop :=
  ∃ gs', nesting gs es = some gs' ∧ Holding me gs' m'

theorem Holding.nests (h : Holding me gs m') : Nests me gs [] m' := ⟨gs, rfl, h⟩

/-! ## The thread's own part -/

theorem holding_push (howes : m.Owes me ks) (h : Due (us ++ m.stackOf me) (m.replyOf me) ks gs) :
    Holding me gs (m.push me us) :=
  ⟨ks, by rwa [stackOf_push, replyOf_push], howes⟩

theorem holding_answer (howes : m.Owes me ks) (h : Due (m.stackOf me) r ks gs) :
    Holding me gs (m.answer me r) :=
  ⟨ks, by rwa [stackOf_answer, replyOf_answer], howes⟩

theorem holding_panic (howes : m.Owes me ks) (text : String)
    (h : Outside ((m.stackOf me).filter Task.isCleanup ++ [.abort text]) ks gs) :
    Holding me gs (m.panic me text) :=
  ⟨ks, by rw [stackOf_panic]; exact h.due _, howes⟩

/-! ## Outside all calls -/

/-- Local tasks go on outside all calls, or panic there. -/
theorem Outside.holding_local (h : Outside (x :: m.stackOf me) ks gs) (howes : m.Owes me ks)
    (hx : x.isLocal = true) (hne : ∀ code, x = .spawn code → me ≠ m.sched.ids.next) :
    Holding me gs (m.perform me x) := by
  have hrest := h.rest.of_calm (Task.isCalm_of_isLocal hx)
  have hlocal := local_perform hx hne
  refine ⟨ks, ?_, howes.congr hlocal.sameLocks.mutexes hlocal.sameLocks.locks⟩
  rw [h.stakes]
  cases hlocal with
  | extended hextends =>
      obtain ⟨new, hnew, hstack⟩ := hextends.stack
      rw [hstack]
      exact (Rest.append (fun y hy => Task.isCalm_of_isLocal (hnew y hy)) hrest).due _
  | panicked text _ hstack =>
      rw [hstack]
      exact (hrest.panic text).due _

/-- The end of a thread comes when no guard is open. -/
theorem holding_end (h : Due (x :: m.stackOf me) r ks gs) (howes : m.Owes me ks)
    (hx : x.isEnd = true) : Holding me gs (m.perform me x) := by
  obtain ⟨hts, rfl, rfl⟩ := h.eq_nil (.inl hx)
  have hlocks := sameLocks_perform me m (x := x) (by cases x <;> first | rfl | cases hx)
  refine ⟨[], ?_, howes.congr hlocks.mutexes hlocks.locks⟩
  rw [stackOf_end me m hx, hts]
  split
  · exact ⟨rfl, rfl, rfl⟩
  · exact ⟨rfl, rfl⟩

theorem Outside.holding_instr {i : Instr} (h : Outside (.instr i :: m.stackOf me) ks gs)
    (howes : m.Owes me ks) : Holding me gs (m.perform me (.instr i)) := by
  refine holding_push howes ?_
  rw [h.stakes]
  cases h.rest with
  | calm hi hts => exact hts.due_tasks hi _ _ _ _ _

/-- Wakeups leave the threads, the mutexes and the locks alone. -/
theorem Outside.holding_signal {k : RendezName} (h : Outside (.signal k :: m.stackOf me) ks gs)
    (howes : m.Owes me ks) : Holding me gs (m.signal k) := by
  have hthreads : (m.signal k).threads = m.threads := by
    unfold signal
    dsimp only
    split <;> rfl
  refine ⟨ks, ?_, howes.congr (signal_frame k m).1 (signal_frame k m).2⟩
  rw [stackOf, hthreads, h.stakes]
  exact (h.rest.of_calm rfl).due _

theorem Outside.holding_broadcast {k : RendezName}
    (h : Outside (.broadcast k :: m.stackOf me) ks gs) (howes : m.Owes me ks) :
    Holding me gs (m.broadcast k) :=
  ⟨ks, h.stakes ▸ (h.rest.of_calm rfl).due _, howes.congr rfl rfl⟩

/-- A sleep on a condition gives up the cell of the innermost guard, or is refused. -/
theorem holding_condSleepWith {k c : Nat} {after : List Task} (hrest : Rest (m.stackOf me) gs)
    (hafter : ∀ y ∈ after, y.isCalm = true) (hguard : gs.head? = some (.cell c))
    (hm : (m.mutexes.get (.cell c)).Regular) (howes : m.Owes me (gs.map Guard.stake)) :
    Holding me gs (m.condSleepWith me k c after) := by
  obtain ⟨gs', rfl⟩ : ∃ gs', gs = .cell c :: gs' := by
    cases gs with
    | nil => cases hguard
    | cons g gs' => exact ⟨gs', by rw [Option.some.inj hguard]⟩
  unfold condSleepWith
  split
  · refine holding_push (m := m.answer me .null) howes ?_
    rw [stackOf_answer]
    exact ⟨⟨_, rfl, howes.notMem hm⟩, (Rest.append hafter hrest).due _⟩
  · exact holding_answer (m := m.note _) howes (hrest.due _)

theorem guard?_eq (hrest : Rest (m.stackOf me) gs) : m.guard? me = gs.head? :=
  hrest.findSome?

theorem Outside.holding_condSleep {k : Nat} (h : Outside (.condSleep k :: m.stackOf me) ks gs)
    (howes : m.Owes me ks) (hm : ∀ name, (m.mutexes.get name).Regular) :
    Holding me gs (m.condSleep me k) := by
  have hrest := h.rest.of_calm rfl
  rw [h.stakes] at howes
  unfold condSleep
  rw [guard?_eq hrest]
  split
  · exact holding_condSleepWith hrest (by simp) ‹_› (hm _) howes
  · exact holding_answer howes (hrest.due _)

theorem Outside.holding_condSleepWhile {k : Nat} {test : Test}
    (h : Outside (.condSleepWhile k test :: m.stackOf me) ks gs) (howes : m.Owes me ks)
    (hm : ∀ name, (m.mutexes.get name).Regular) :
    Holding me gs (m.condSleepWhile me k test) := by
  have hrest := h.rest.of_calm rfl
  rw [h.stakes] at howes
  unfold condSleepWhile
  rw [guard?_eq hrest]
  split
  · split
    · exact holding_panic howes _ ⟨hrest.panic _, rfl⟩
    · rename_i memory _
      dsimp only
      split
      · exact holding_condSleepWith (m := { m with memory }) hrest (by simp [Task.isCalm]) ‹_›
          (hm _) howes
      · exact holding_answer (m := { m with memory }) howes (hrest.due _)
  · exact holding_answer howes (hrest.due _)

/-! ## Mutexes and sleeps -/

theorem replyOf_acquire (me : ThreadId) (name : MutexName) (m : Machine) :
    (m.acquire me name).replyOf me = m.replyOf me := by
  unfold acquire
  dsimp only
  split
  · rfl
  · exact replyOf_push me _ _
  · exact replyOf_panic me _ _

/-- A thread that has the mutex panics with its guards; another one goes on when it is the owner. -/
theorem holding_acquire (h : Due (.acquire name :: m.stackOf me) (m.replyOf me) ks gs)
    (howes : m.Owes me ks) (hq : me ∉ (m.mutexes.get name).waiting) :
    Holding me gs (m.acquire me name) := by
  by_cases hmem : .mutex name ∈ ks
  · have ho := howes.owner hmem hq
    refine ⟨ks, ?_, howes.relock ho⟩
    rcases acquire_cases me name m with ⟨-, -, text, hstack⟩ | ⟨hnone, -⟩ | ⟨hne, -⟩
    · rw [hstack]
      exact (h.1 hmem text).due _
    · exact absurd (ho.symm.trans hnone) (by simp)
    · exact absurd ho hne
  · have ho := howes.owner_ne hmem
    refine ⟨.mutex name :: ks, ?_, howes.acquire ho⟩
    rw [replyOf_acquire]
    rcases acquire_cases me name m with ⟨hown, -⟩ | ⟨-, -, hstack⟩ | ⟨-, -, -, hstack⟩
    · exact absurd hown ho
    · rw [hstack]
      exact h.2 hmem
    · rw [hstack]
      exact h.2 hmem

theorem holding_awaitOwner (h : Due (m.stackOf me) (m.replyOf me) ks gs) (howes : m.Owes me ks) :
    Holding me gs (m.awaitOwner me name) := by
  unfold awaitOwner
  split
  · exact ⟨ks, h, howes⟩
  · exact holding_push howes h

theorem holding_tryAcquire (h : Due (.tryAcquire name :: m.stackOf me) (m.replyOf me) ks gs)
    (howes : m.Owes me ks) : Holding me gs (m.tryAcquire me name) := by
  refine ⟨_, ?_, howes.tryAcquire⟩
  have hreply : (m.tryAcquire me name).replyOf me = .bool ((m.mutexes.get name).tryTake me).1 :=
    replyOf_answer ..
  have hstack : (m.tryAcquire me name).stackOf me = m.stackOf me := stackOf_answer ..
  rw [hreply, hstack]
  cases ((m.mutexes.get name).tryTake me).1 with
  | true => exact h.1
  | false => exact h.2

theorem replyOf_release (me : ThreadId) (name : MutexName) (m : Machine) :
    (m.release me name).replyOf me = m.replyOf me := by
  unfold release
  dsimp only
  split
  · split <;> rfl
  · rfl

/-- A release closes the innermost guard, unless its thread goes to sleep. -/
theorem nests_release (h : Due (.release name :: m.stackOf me) (m.replyOf me) ks gs)
    (howes : m.Owes me ks) (hm : (m.mutexes.get name).Regular)
    (hq : me ∉ (m.mutexes.get name).waiting) :
    Nests me gs (m.guardEvents me (.release name)) (m.release me name) := by
  obtain ⟨ks', gs', rfl, rfl, hdue⟩ := h
  refine ⟨gs', ?_, ks', ?_, howes.release hm (howes.owner List.mem_cons_self hq)⟩
  · rw [guardEvents]
    cases name.freed? (m.stackOf me) <;> simp
  · rwa [stackOf_release, replyOf_release]

theorem holding_sleepOn {k : RendezName}
    (h : Due (.sleepOn k name :: m.stackOf me) (m.replyOf me) ks gs) (howes : m.Owes me ks) :
    Holding me gs (m.sleepOn me k name) := by
  obtain ⟨⟨ks', rfl, hks⟩, hdue⟩ := h
  refine holding_push (m := m.setRendez k _) ?_ (due_sleep hks hdue)
  exact howes.congr rfl rfl

/-! ## Sections of locks -/

theorem Owes.swap {a b : Stake} (h : m.Owes t (a :: b :: ks)) : m.Owes t (b :: a :: ks) :=
  fun k => (h k).trans ((List.Perm.swap b a ks).count_eq k)

theorem holding_request (side : RwSide)
    (h : Due (side.request l :: m.stackOf me) (m.replyOf me) ks gs)
    (howes : m.Owes me ks) (hm : (m.mutexes.get (.inner l)).Regular) :
    Holding me gs (m.perform me (side.request l)) := by
  obtain ⟨ks', rfl, hgranted, hrefused⟩ := (due_request side).mp h
  have howes' := howes.request side l
  rcases request_thread side l me m with ⟨hv, hstack, hreply⟩ | ⟨hv, hstack, hreply⟩ |
    ⟨hv, hstack, hreply⟩ <;> rw [hv] at howes'
  · refine ⟨_, ?_, Owes.swap howes'⟩
    rw [hstack, hreply]
    exact ⟨_, rfl, hgranted⟩
  · refine ⟨_, ?_, Owes.swap howes'⟩
    rw [hstack, hreply]
    refine ⟨⟨_, rfl, ?_⟩, (due_recheck side).mpr ⟨ks', rfl, hgranted⟩⟩
    simpa using howes.notMem hm
  · refine ⟨_, ?_, howes'⟩
    rw [hstack, hreply]
    exact ⟨_, rfl, hrefused⟩

theorem holding_recheck (side : RwSide)
    (h : Due (side.recheck l :: m.stackOf me) (m.replyOf me) ks gs)
    (howes : m.Owes me ks) (hm : (m.mutexes.get (.inner l)).Regular)
    (hsame : ((m.locks.get l).recheck me side).2 = m.locks.get l) :
    Holding me gs (m.perform me (side.recheck l)) := by
  obtain ⟨hstack, hreply⟩ := recheck_thread side l me m
  have hmutexes : (m.perform me (side.recheck l)).mutexes = m.mutexes := by
    cases side <;> rfl
  have howes' : (m.perform me (side.recheck l)).Owes me ks := by
    refine howes.of_lock hmutexes (locks_recheck side l me m) (fun d => ?_) fun _ _ => rfl
    rw [hsame]
    exact howes (.hold d l)
  refine ⟨ks, ?_, howes'⟩
  obtain ⟨ks', rfl, hdue⟩ := (due_recheck side).mp h
  rw [hstack, hreply]
  split
  · exact ⟨_, rfl, hdue⟩
  · exact ⟨⟨_, rfl, howes.notMem hm⟩, h⟩

theorem holding_attempt (side : RwSide)
    (h : Due (side.attempt l :: m.stackOf me) (m.replyOf me) ks gs)
    (howes : m.Owes me ks) : Holding me gs (m.perform me (side.attempt l)) := by
  obtain ⟨ks', rfl, htaken, hfailed⟩ := (due_attempt side).mp h
  have howes' := howes.attempt side l
  have hstack : (m.perform me (side.attempt l)).stackOf me = .closeSection l :: m.stackOf me := by
    cases side <;>
      exact (stackOf_push me _ _).trans (congrArg (List.cons _) (stackOf_answer ..))
  have hreply : (m.perform me (side.attempt l)).replyOf me =
      .bool ((m.locks.get l).attempt me side).1 := by
    cases side <;> exact (replyOf_push me _ _).trans (replyOf_answer ..)
  cases hv : ((m.locks.get l).attempt me side).1 with
  | true =>
      rw [hv] at howes' hreply
      refine ⟨_, ?_, Owes.swap howes'⟩
      rw [hstack, hreply]
      exact ⟨_, rfl, htaken⟩
  | false =>
      rw [hv] at howes' hreply
      refine ⟨_, ?_, howes'⟩
      rw [hstack, hreply]
      exact ⟨_, rfl, hfailed⟩

/-- A release of a lock closes the innermost guard. It does not fail: the thread has the hold. -/
theorem nests_unlock (side : RwSide) (h : Due (side.release l :: m.stackOf me) (m.replyOf me) ks gs)
    (howes : m.Owes me ks) (hr : (m.locks.get l).Regular) (hq : ¬ (m.locks.get l).IsQueued me) :
    Nests me gs (m.guardEvents me (side.release l)) (m.perform me (side.release l)) := by
  obtain ⟨ks', gs', rfl, rfl, hdue⟩ := (due_release side).mp h
  obtain ⟨out, hout⟩ := howes.exists_release (List.mem_cons_of_mem _ List.mem_cons_self) hq
  refine ⟨gs', ?_, _, ?_, Owes.unlock howes.swap hr hq hout⟩
  · cases side <;> simp [guardEvents, RwSide.release, RwSide.guard]
  · have hthreads : ((m.setLock l out.2).wakeGranted l out.1).threads = m.threads := by
      cases out.1 <;> rfl
    rw [perform_release_of_some hout, stackOf_push, replyOf_push, stackOf_answer, replyOf_answer,
      stackOf, hthreads]
    exact ⟨_, rfl, hdue⟩

theorem holding_closeSection (h : Due (.closeSection l :: m.stackOf me) (m.replyOf me) ks gs)
    (howes : m.Owes me ks) (hr : (m.locks.get l).Regular) :
    Holding me gs (m.closeSection me l) := by
  obtain ⟨ks', rfl, hdue⟩ := h
  rw [closeSection, RwState.violation?_eq_none_iff.mpr hr.isConsistent]
  exact holding_push howes ⟨ks', gs, rfl, rfl, hdue⟩

theorem holding_copyState (h : Due (.copyState l :: m.stackOf me) (m.replyOf me) ks gs)
    (howes : m.Owes me ks) : Holding me gs (m.perform me (.copyState l)) := by
  obtain ⟨ks', rfl, hdue⟩ := h
  refine holding_push (m := m.answer me _) howes ?_
  rw [stackOf_answer, replyOf_answer]
  exact ⟨ks', rfl, hdue _⟩

/-! ## Blocks and diagnostics -/

theorem stackOf_report (me : ThreadId) (n : String) (m : Machine) :
    (m.report me n).stackOf me = m.stackOf me :=
  stackOf_onThread me (fun x => { x with produced := x.produced + 1 }) m

/-- A guard that is obtained is the innermost one. -/
theorem nests_enter {n : String} {body : List Instr}
    (h : Due (.enter n g body :: m.stackOf me) (m.replyOf me) ks gs) (howes : m.Owes me ks) :
    Nests me gs (m.guardEvents me (.enter n g body)) (m.enter me n g body) := by
  obtain ⟨hbody, hrest, rfl⟩ := h
  show Nests me gs (obtaining g (m.replyOf me)) (m.enter me n g body)
  unfold enter obtaining
  split
  · rename_i hr
    rw [if_pos hr] at howes
    refine ⟨gs, rfl, _, ?_, howes⟩
    rw [stackOf_report]
    exact hrest.due _
  · rename_i hr
    rw [if_neg hr] at howes
    refine ⟨g :: gs, rfl, holding_push (m := (m.answer me (.bool true)).report me n) howes ?_⟩
    rw [stackOf_report, stackOf_answer, List.append_assoc]
    exact (Rest.append (isCalm_code hbody) (.drop (.calm rfl (.calm rfl hrest)))).due _

theorem Outside.holding_drop (h : Outside (.drop g :: m.stackOf me) ks gs) (howes : m.Owes me ks) :
    Holding me gs (m.drop me g) := by
  refine holding_push howes ?_
  rw [h.stakes]
  cases h.rest with
  | calm hx => cases hx
  | drop hts => exact due_drop g _ hts

theorem nests_showCell {c : Nat} (h : Due (.showCell c :: m.stackOf me) (m.replyOf me) ks gs)
    (howes : m.Owes me ks) :
    Nests me gs (m.guardEvents me (.showCell c)) (m.showCell me c) := by
  obtain ⟨hrest, rfl⟩ := h
  show Nests me gs (obtaining (.cell c) (m.replyOf me)) (m.showCell me c)
  unfold showCell obtaining
  split
  · rename_i hr
    rw [if_pos hr] at howes
    exact (holding_answer howes (hrest.due _)).nests
  · rename_i hr
    rw [if_neg hr] at howes
    refine ⟨.cell c :: gs, rfl, holding_push (m := m.answer me _) howes ?_⟩
    rw [stackOf_answer]
    exact due_drop (.cell c) _ hrest

theorem nests_showLock (h : Due (.showLock l :: m.stackOf me) (m.replyOf me) ks gs)
    (howes : m.Owes me ks) :
    Nests me gs (m.guardEvents me (.showLock l)) (m.showLock me l) := by
  obtain ⟨hrest, rfl⟩ := h
  show Nests me gs (obtaining (.shared l) (m.replyOf me)) (m.showLock me l)
  unfold showLock obtaining
  split
  · rename_i hr
    rw [if_pos hr] at howes
    exact (holding_answer howes (hrest.due _)).nests
  · rename_i hr
    rw [if_neg hr] at howes
    exact ⟨.shared l :: gs, rfl,
      holding_push howes (Rest.due (.drop (.calm rfl hrest)) _)⟩

theorem holding_checkDrop {exclusive : Bool}
    (h : Due (.checkDrop exclusive :: m.stackOf me) (m.replyOf me) ks gs) (howes : m.Owes me ks) :
    Holding me gs (m.checkDrop me exclusive) := by
  unfold checkDrop
  split
  · exact absurd ‹_› (h.1 _)
  · exact ⟨ks, h.2, howes⟩

theorem holding_drain (h : Due (.drain :: m.stackOf me) (m.replyOf me) ks gs)
    (howes : m.Owes me ks) : Holding me gs (m.drain me) := by
  obtain ⟨hts, rfl, rfl⟩ := h
  unfold drain
  split
  · exact holding_push howes ⟨hts, rfl, rfl⟩
  · refine ⟨[], ?_, howes.congr rfl rfl⟩
    rw [show (m.onSched (Sched.conclude me)).stackOf me = m.stackOf me from rfl, hts]
    exact ⟨rfl, rfl⟩

/-! ## All tasks -/

/-- Every task of a thread with scoped code keeps what is held, and opens or closes the innermost
guard at most. -/
theorem nests_perform (hq : m.MutexQueues) (hl : m.LockQueues) (hs : m.Sound)
    (hstack : m.stackOf me = x :: ts) (hne : ∀ code, x = .spawn code → me ≠ m.sched.ids.next)
    (h : Holding me gs m) :
    Nests me gs ((m.setStack me ts).guardEvents me x) ((m.setStack me ts).perform me x) := by
  have hts : (m.setStack me ts).stackOf me = ts := stackOf_onThread ..
  obtain ⟨ks, hdue, hm⟩ := h
  have howes : (m.setStack me ts).Owes me ks := hm.congr rfl rfl
  rw [hstack, ← hts, ← replyOf_setStack me ts m] at hdue
  have hregular : ∀ name, ((m.setStack me ts).mutexes.get name).Regular := hq.regular
  have hlock : ∀ l, ((m.setStack me ts).locks.get l).Regular := hl.regular
  have hwait : x ≠ .suspend → ∀ name, x ≠ .awaitOwner name →
      me ∉ ((m.setStack me ts).mutexes.get name).waiting := fun hsuspend name hx =>
    hq.not_waiting hs hstack hx hsuspend
  have hqueued : x.isDoze = false → x.isRecheck = false → ∀ l,
      ¬ ((m.setStack me ts).locks.get l).IsQueued me := fun hdoze hlook l =>
    hl.not_isQueued hs hstack hdoze hlook
  cases x with
  | instr i => exact (Outside.holding_instr hdue howes).nests
  | answer r => exact (holding_answer howes hdue).nests
  | suspend | leave => exact Holding.nests ⟨ks, hdue, howes.congr rfl rfl⟩
  | acquire name => exact (holding_acquire hdue howes (hwait (by simp) name (by simp))).nests
  | awaitOwner name => exact (holding_awaitOwner hdue howes).nests
  | tryAcquire name => exact (holding_tryAcquire hdue howes).nests
  | release name =>
      exact nests_release hdue howes (hregular name) (hwait (by simp) name (by simp))
  | sleepOn k name => exact (holding_sleepOn hdue howes).nests
  | signal k => exact (Outside.holding_signal hdue howes).nests
  | broadcast k => exact (Outside.holding_broadcast hdue howes).nests
  | requestRead l => exact (holding_request .read hdue howes (hregular _)).nests
  | requestWrite l => exact (holding_request .write hdue howes (hregular _)).nests
  | recheckRead l =>
      exact (holding_recheck .read hdue howes (hregular _) (hl.recheck hs hstack).1).nests
  | recheckWrite l =>
      exact (holding_recheck .write hdue howes (hregular _) (hl.recheck hs hstack).1).nests
  | tryRead l => exact (holding_attempt .read hdue howes).nests
  | tryWrite l => exact (holding_attempt .write hdue howes).nests
  | releaseRead l =>
      exact nests_unlock .read hdue howes (hlock l) (hqueued rfl rfl l)
  | releaseWrite l =>
      exact nests_unlock .write hdue howes (hlock l) (hqueued rfl rfl l)
  | copyState l => exact (holding_copyState hdue howes).nests
  | closeSection l => exact (holding_closeSection hdue howes (hlock l)).nests
  | enter n g body => exact nests_enter hdue howes
  | drop g => exact (Outside.holding_drop hdue howes).nests
  | checkDrop exclusive => exact (holding_checkDrop hdue howes).nests
  | condSleep k => exact (Outside.holding_condSleep hdue howes hregular).nests
  | condSleepWhile k test => exact (Outside.holding_condSleepWhile hdue howes hregular).nests
  | showCell c => exact nests_showCell hdue howes
  | showLock l => exact nests_showLock hdue howes
  | exit | abort => exact (holding_end hdue howes rfl).nests
  | drain => exact (holding_drain hdue howes).nests
  | sleepUntil | releaseHeld =>
      cases (Outside.rest hdue) with
      | calm hx => cases hx
  | _ => exact (Outside.holding_local hdue howes rfl hne).nests

end Machine

end Baton
