import Baton.Futex.Ticket
import Baton.Proofs.Program.Objects

/-!
# Machine: bookkeeping behind ticket locks

The state of a mutex lies behind a ticket lock of its own, and so does the list of the sleepers in a
rendezvous. A task takes such a lock for one section and gives it back when the section ends, be it
by a panic. So between two tasks of a run no ticket lock is held, and what lies behind them is what
the machine says.
-/

namespace Baton

namespace TicketLock

/-- Nobody holds the lock or waits for it. -/
structure AtRest (l : TicketLock) : Prop where
  away : ∀ t, l.phase t = .away
  served : l.serving = l.next

end TicketLock

namespace Guarded

variable {α β : Type} {g : Guarded α} {v : α}

/-- The lock is at rest, and this is the value behind it. -/
structure Shows (g : Guarded α) (v : α) : Prop where
  atRest : g.lock.AtRest
  value : g.value = v

theorem shows_ofValue (v : α) : (ofValue v).Shows v := ⟨⟨fun _ => rfl, rfl⟩, rfl⟩

/-- A section behind a lock at rest is carried out at once, and leaves the lock at rest whatever
comes of it. -/
theorem Shows.withLock (h : g.Shows v) (t : ThreadId) (f : α → β × α) :
    (g.withLock t f).1 = some (f v).1 ∧ (g.withLock t f).2.Shows (f v).2 := by
  obtain ⟨⟨haway, hserved⟩, rfl⟩ := h
  have htaken : g.lock.step (.take t) = { g.lock with
      next := g.lock.next + 1
      phases := g.lock.phases.set t (.waiting g.lock.next) } := if_pos (haway t)
  have hasked : g.lock.run [.take t, .look t] = { g.lock with
      next := g.lock.next + 1
      phases := (g.lock.phases.set t (.waiting g.lock.next)).set t .holding } := by
    show (g.lock.step (.take t)).step (.look t) = _
    rw [htaken]
    simp [TicketLock.step, TicketLock.phase, hserved]
  have hheld : (g.lock.run [.take t, .look t]).phase t = .holding := by
    rw [hasked]
    simp [TicketLock.phase]
  have hguard : ((g.lock.run [.take t, .look t]).phase t).hasGuard = true := by rw [hheld]; rfl
  unfold Guarded.withLock
  dsimp only
  rw [if_pos hheld]
  refine ⟨rfl, ⟨fun u => ?_, ?_⟩, rfl⟩
  · dsimp only
    rw [TicketLock.step, if_pos hguard, hasked]
    show ((((g.lock.phases.set t _).set t _).set t _).get u) = _
    rw [Store.get_set]
    split
    · rfl
    · rename_i hne
      rw [Store.get_set, if_neg hne, Store.get_set, if_neg hne]
      exact haway u
  · dsimp only
    rw [TicketLock.step, if_pos hguard, hasked]
    exact congrArg (· + 1) hserved

end Guarded

/-- The section of a release: only the owner hands the mutex over. -/
def Mutex.giveUp (me : ThreadId) (x : Mutex) : Bool × Mutex :=
  if x.isOwnedBy me then (true, x.handOver) else (false, x)

/-- Whether the task has a section on a mutex or a rendezvous that it names, except that it takes
all sleepers out. -/
def Task.isBooked : Task → Bool
  | acquire _ | awaitOwner _ | tryAcquire _ | release _ | owner _ => true
  | sleepOn .. | leave _ | signal _ | sleepers _ => true
  | _ => false

/-- The bookkeeping of the mutexes and rendezvous. -/
structure Desk where
  mutexes : MutexName → Guarded Mutex
  rendezvous : RendezName → Guarded Rendez

namespace Desk

/-- The bookkeeping at the start. -/
def fresh : Desk := ⟨fun _ => .ofValue .free, fun _ => .ofValue .empty⟩

/-- Carries out a section on a mutex. -/
def onMutex {β : Type} (me : ThreadId) (name : MutexName) (f : Mutex → β × Mutex) (d : Desk) :
    Desk :=
  { d with mutexes := Function.update d.mutexes name ((d.mutexes name).withLock me f).2 }

/-- Carries out a section on a rendezvous. -/
def onRendez {β : Type} (me : ThreadId) (r : RendezName) (f : Rendez → β × Rendez) (d : Desk) :
    Desk :=
  { d with rendezvous := Function.update d.rendezvous r ((d.rendezvous r).withLock me f).2 }

/-- The section of a task, if it has one. What becomes of a request is its result: a refused one
leaves the section by a panic. -/
def visit (me : ThreadId) (x : Task) (m : Machine) (d : Desk) : Desk :=
  match x with
  | .acquire name => d.onMutex me name (Mutex.request me)
  | .awaitOwner name => d.onMutex me name fun y => (y.isOwnedBy me, y)
  | .tryAcquire name => d.onMutex me name (Mutex.tryTake me)
  | .release name => d.onMutex me name (Mutex.giveUp me)
  | .owner name => d.onMutex me name fun y => (y.owner, y)
  | .sleepOn r _ => d.onRendez me r fun y => ((), y.enlist me)
  | .leave r => d.onRendez me r fun y => ((), y.leave me)
  | .signal r => d.onRendez me r Rendez.pick
  | .sleepers r => d.onRendez me r fun y => (y.sleepers.length, y)
  | x => match m.emptied me x with
    | some r => d.onRendez me r fun y => (y.sleepers, .empty)
    | none => d

/-- All ticket locks are at rest, and behind them is the state that the machine has. -/
structure Shows (d : Desk) (m : Machine) : Prop where
  mutexes : ∀ name, (d.mutexes name).Shows (m.mutexes.get name)
  rendezvous : ∀ r, (d.rendezvous r).Shows (m.rendezvous.get r)

variable {d : Desk} {m n : Machine} {me : ThreadId} {x : Task} {name : MutexName} {r : RendezName}
  {β : Type}

theorem shows_fresh (p : Program) : fresh.Shows p.machine where
  mutexes _ := Guarded.shows_ofValue Mutex.free
  rendezvous _ := Guarded.shows_ofValue Rendez.empty

theorem Shows.congr (h : d.Shows m) (hmutexes : ∀ name, n.mutexes.get name = m.mutexes.get name)
    (hrendezvous : ∀ r, n.rendezvous.get r = m.rendezvous.get r) : d.Shows n where
  mutexes name := hmutexes name ▸ h.mutexes name
  rendezvous r := hrendezvous r ▸ h.rendezvous r

/-- A section on a mutex shows what becomes of that mutex. -/
theorem Shows.onMutex (h : d.Shows m) (f : Mutex → β × Mutex)
    (hmutexes : ∀ k, n.mutexes.get k =
      if k = name then (f (m.mutexes.get name)).2 else m.mutexes.get k)
    (hrendezvous : n.rendezvous = m.rendezvous) : (d.onMutex me name f).Shows n where
  mutexes k := by
    show (Function.update d.mutexes name _ k).Shows _
    rw [hmutexes k, Function.update_apply]
    split
    · exact ((h.mutexes name).withLock me f).2
    · exact h.mutexes k
  rendezvous := hrendezvous ▸ h.rendezvous

/-- A section that only looks. -/
theorem Shows.look (h : d.Shows m) {f : Mutex → β} (hn : Machine.SameLocks m n) :
    (d.onMutex me name fun y => (f y, y)).Shows n := by
  refine h.onMutex _ (fun k => ?_) hn.rendezvous
  rw [hn.mutexes]
  split
  · rw [‹k = name›]
  · rfl

/-- A section on a rendezvous shows what becomes of that rendezvous. -/
theorem Shows.onRendez (h : d.Shows m) (f : Rendez → β × Rendez) (hmutexes : n.mutexes = m.mutexes)
    (hrendezvous : ∀ k, n.rendezvous.get k =
      if k = r then (f (m.rendezvous.get r)).2 else m.rendezvous.get k) :
    (d.onRendez me r f).Shows n where
  mutexes := hmutexes ▸ h.mutexes
  rendezvous k := by
    show (Function.update d.rendezvous r _ k).Shows _
    rw [hrendezvous k, Function.update_apply]
    split
    · exact ((h.rendezvous r).withLock me f).2
    · exact h.rendezvous k

theorem Shows.release (h : d.Shows m) :
    (d.onMutex me name (Mutex.giveUp me)).Shows (m.perform me (.release name)) := by
  refine h.onMutex _ (fun k => ?_) (Machine.release_frame me name m).1
  show (m.release me name).mutexes.get k = _
  rw [Machine.mutexes_release, Mutex.giveUp, Mutex.isOwnedBy]
  by_cases ho : (m.mutexes.get name).owner = some me
  · rw [if_pos ho, if_pos (beq_iff_eq.mpr ho), Store.get_set]
  · rw [if_neg ho, if_neg (fun he => ho (beq_iff_eq.mp he))]
    split
    · rw [‹k = name›]
    · rfl

/-- A release of a lock may take all sleepers out of a rendezvous of that lock. -/
theorem Shows.releaseLock (h : d.Shows m) (side : RwSide) (l : LockName) :
    (match m.emptied me (side.release l) with
      | some r => d.onRendez me r fun y => (y.sleepers, .empty)
      | none => d).Shows (m.perform me (side.release l)) := by
  have hmutexes := (Machine.mutexes_lock side l me m).2
  have hrendezvous := Machine.rendezvous_release side l me m
  cases hout : m.emptied me (side.release l) with
  | none =>
      rw [hout] at hrendezvous
      exact h.congr (fun name => congrArg (Store.get · name) hmutexes)
        fun r => congrArg (Store.get · r) hrendezvous
  | some r =>
      rw [hout] at hrendezvous
      refine h.onRendez _ hmutexes fun k => ?_
      rw [hrendezvous]
      exact Store.get_set ..

/-- A task without a section leaves the mutexes and the rendezvous alone. -/
theorem Shows.apart (h : d.Shows m) (hx : x.isBooked = false) (hempties : m.emptied me x = none) :
    d.Shows (m.perform me x) := by
  refine h.congr (fun name => ?_) fun r => ?_
  · rcases Machine.mutex_perform me x m name with ⟨rfl, -⟩ | ⟨rfl, -⟩ | ⟨rfl, -⟩ | he
    · cases hx
    · cases hx
    · cases hx
    · exact he
  · rcases Machine.rendez_perform me x m r with
      ⟨⟨name, rfl⟩, -⟩ | ⟨rfl, -⟩ | ⟨rfl, -⟩ | ⟨he, -⟩ | he
    · cases hx
    · cases hx
    · cases hx
    · cases hempties.symm.trans he
    · exact he

/-- After each task all ticket locks are at rest again, and show what the task has done. -/
theorem Shows.visit (h : d.Shows m) (me : ThreadId) (x : Task) :
    (d.visit me x m).Shows (m.perform me x) := by
  cases x with
  | acquire name =>
      refine h.onMutex _ (fun k => ?_) (Machine.acquire_frame me name m).1
      show (m.acquire me name).mutexes.get k = _
      rw [Machine.mutexes_acquire, Store.get_set]
  | awaitOwner name => exact h.look (Machine.sameLocks_perform me m rfl)
  | tryAcquire name => exact h.onMutex _ (fun k => Store.get_set ..) rfl
  | release name => exact h.release
  | owner name => exact h.look (Machine.sameLocks_perform me m rfl)
  | sleepOn r name => exact h.onRendez _ rfl fun k => Store.get_set ..
  | leave r => exact h.onRendez _ rfl fun k => Store.get_set ..
  | signal r =>
      refine h.onRendez _ (Machine.signal_frame r m).1 fun k => ?_
      show (m.signal r).rendezvous.get k = _
      rw [Machine.rendezvous_signal, Store.get_set]
  | broadcast r => exact h.onRendez _ rfl fun k => Store.get_set ..
  | sleepers r =>
      refine h.onRendez _ rfl fun k => ?_
      split
      · rw [‹k = r›]
        rfl
      · rfl
  | releaseRead l => exact h.releaseLock .read l
  | releaseWrite l => exact h.releaseLock .write l
  | _ => exact h.apart rfl rfl

end Desk

namespace Machine

variable {p : Program} {m : Machine} {d : Desk}

/-- A run of a program together with the bookkeeping that its tasks do. -/
inductive Booked (p : Program) : Desk → Machine → Prop where
  | start : Booked p .fresh p.machine
  | task {d : Desk} {m : Machine} {me : ThreadId} {x : Task} {ts : List Task} : Booked p d m →
      m.sched.turn = .held me → m.stackOf me = x :: ts →
      Booked p (d.visit me x (m.setStack me ts)) ((m.setStack me ts).perform me x)
  | search {d : Desk} {m : Machine} {s : Sched} : Booked p d m →
      (∀ t, m.sched.turn ≠ .held t) → m.sched.search m.system = some s →
      Booked p d { m with sched := s }
  | wake {d : Desk} {m : Machine} (id : ThreadId) : Booked p d m →
      Booked p d (m.wakeFromOutside id)
  | elapse {d : Desk} {m : Machine} (span : Span) : Booked p d m →
      Booked p d (m.onSched (Sched.elapse span))
  | outage {d : Desk} {m : Machine} (e : Option Errno) : Booked p d m → Booked p d (m.setOutage e)

/-- At every moment of a run all ticket locks are at rest. -/
theorem Booked.shows (h : Booked p d m) : d.Shows m := by
  induction h with
  | start => exact Desk.shows_fresh p
  | @task d m me x ts _ _ _ ih =>
      have hbefore : d.Shows (m.setStack me ts) := ih.congr (fun _ => rfl) fun _ => rfl
      exact hbefore.visit me x
  | search _ _ _ ih | wake _ _ ih | elapse _ _ ih | outage _ _ ih =>
      exact ih.congr (fun _ => rfl) fun _ => rfl

/-- Every run has its bookkeeping. -/
theorem Reaches.booked (h : Reaches p.machine m) : ∃ d, Booked p d m := by
  induction h with
  | refl => exact ⟨_, .start⟩
  | step _ hstep ih =>
      obtain ⟨d, hd⟩ := ih
      rcases step_cases hstep with ⟨me, x, ts, hturn, hstack, rfl⟩ | ⟨hfree, s, hs, rfl⟩
      · exact ⟨_, hd.task hturn hstack⟩
      · exact ⟨d, hd.search hfree hs⟩
  | wake id _ ih => exact ih.imp fun _ hd => .wake id hd
  | elapse span _ ih => exact ih.imp fun _ hd => .elapse span hd
  | outage e _ ih => exact ih.imp fun _ hd => .outage e hd

end Machine

end Baton
