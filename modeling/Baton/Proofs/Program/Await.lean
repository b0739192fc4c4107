import Baton.Proofs.RwLock.Bystander
import Baton.Proofs.Sched.Bystander
import Baton.Program.Step

/-!
# Machine: what suspended threads wait for

The top of a suspended thread's stack tells what it waits for. `Pending` says that the thread is
registered with that and that it has not happened yet; `Kept` says what a task further down relies
on when the thread comes to it.

## Implementation notes

`Spares b` collects what the threads in `b` can rely on in a change of the machine: what they wait
for stays pending unless they are woken. It is reflexive and transitive, so an operation is dealt
with piece by piece.
-/

namespace Baton

/-- What a suspended thread waits for. -/
inductive Await where
  /-- To be handed a mutex. -/
  | mutex (name : MutexName)
  /-- To be woken in a rendezvous. -/
  | rendez (name : RendezName)
  /-- To be granted a read hold. -/
  | reader (lock : LockName)
  /-- To be granted the write hold. -/
  | writer (lock : LockName)
  /-- The end of a thread. -/
  | thread (id : ThreadId)
  /-- The outcome of a wait for descriptors. -/
  | descriptors
  /-- The end of all other threads. -/
  | others
  /-- A wakeup, for its own sake. -/
  | wakeup
  deriving DecidableEq

/-- What a thread waits for that sleeps in a rendezvous. -/
def RendezName.await : RendezName → Await
  | readers l => .reader l
  | writers l => .writer l
  | r => .rendez r

/-- What a thread waits for that is suspended with this stack. -/
def Await.of : List Task → Option Await
  | .awaitOwner name :: _ => some (.mutex name)
  | .leave r :: _ => some r.await
  | .awaitThread id :: _ => some (.thread id)
  | .collect :: _ => some .descriptors
  | .drain :: _ => some .others
  | .answer _ :: _ => some .wakeup
  | .stopUntil .. :: _ => some .wakeup
  | _ => none

/-- Whether programs can name the rendezvous. -/
def RendezName.isPublic : RendezName → Bool
  | raw _ | cond _ => true
  | readers _ | writers _ => false

/-- Whether the task may stand anywhere in a stack: it relies on nothing, and the thread cannot be
suspended in front of it. -/
def Task.isPlain : Task → Bool
  | suspend | awaitOwner _ | leave _ | recheckRead _ | recheckWrite _ | awaitThread _ => false
  | collect | drain => false
  | sleepOn r _ | sleepUntil r .. => r.isPublic
  | _ => true

theorem isPlain_of_all {ts : List Task} (h : ts.all Task.isPlain = true) :
    ∀ x ∈ ts, x.isPlain = true :=
  List.all_eq_true.mp h

namespace Machine

/-- The tasks that a thread still has before it. -/
def stackOf (t : ThreadId) (m : Machine) : List Task := (m.threads.get t).stack

theorem popTask_of_stack {me : ThreadId} {m : Machine} {x : Task} {ts : List Task}
    (h : m.stackOf me = x :: ts) : m.popTask me = some (x, m.setStack me ts) := by
  rw [popTask, show (m.threads.get me).stack = x :: ts from h]

/-- A thread has only plain tasks before it. -/
def Plain (t : ThreadId) (m : Machine) : Prop := ∀ x ∈ m.stackOf t, x.isPlain = true

/-- A thread has its code before it and nothing else. -/
def Coded (t : ThreadId) (m : Machine) : Prop :=
  ∃ code : List Instr, m.stackOf t = code.map Task.instr ++ [.exit]

/-- The thread is registered with what it waits for, and that has not happened. -/
def Pending (t : ThreadId) (m : Machine) : Await → Prop
  | .mutex name =>
    t ∈ (m.mutexes.get name).waiting ∧ (m.mutexes.get name).owner ≠ some t
  | .rendez r => t ∈ (m.rendezvous.get r).sleepers
  | .reader l =>
    t ∈ (m.rendezvous.get (.readers l)).sleepers ∧
      t ∈ (m.locks.get l).readQueue ∧ t ∉ (m.locks.get l).readers
  | .writer l =>
    t ∈ (m.rendezvous.get (.writers l)).sleepers ∧
      t ∈ (m.locks.get l).writeQueue ∧ (m.locks.get l).writer ≠ some t
  | .thread id =>
    m.sched.isLive id = true ∧ m.outcomes.get? id = none ∧ t ∈ m.sched.joinersOf id
  | .descriptors => m.sched.Registered t ∧ m.sched.delivery? t = none
  | .others => t = m.sched.main ∧ ∃ u, u ≠ t ∧ m.sched.isLive u = true
  | .wakeup => True

/-- A thread that was spawned: it is live, or its outcome is known. -/
def Spawned (id : ThreadId) (m : Machine) : Prop :=
  id ≠ m.sched.main ∧ (m.sched.isLive id = true ∨ m.outcomes.get? id ≠ none)

/-- What a task of a thread relies on. -/
def Kept (t : ThreadId) (m : Machine) : Task → Prop
  | .awaitOwner name =>
    t ∈ (m.mutexes.get name).waiting ∨ (m.mutexes.get name).owner = some t
  | .recheckWrite l =>
    t ∈ (m.locks.get l).writeQueue ∨ (m.locks.get l).writer = some t
  | .awaitThread id => m.Spawned id
  | .collect =>
    m.sched.isLive t = true ∧ (m.sched.Registered t ∨ m.sched.delivery? t ≠ none)
  | .drain => t = m.sched.main
  | _ => True

/-- What the threads in `b` can rely on in a change of the machine. Where a wait is concerned, they
can rely on it as long as they are not woken. -/
structure Spares (b : ThreadId → Prop) (m m' : Machine) : Prop where
  main : m'.sched.main = m.sched.main
  live : ∀ t, b t → m.sched.isLive t = true → m'.sched.isLive t = true
  stopped : ∀ t, b t → m'.sched.isStopped t = true → m.sched.isStopped t = true
  /-- Only a thread that starts gets a stack from another one. -/
  stack : ∀ t, b t → m'.stackOf t = m.stackOf t ∨
    m.sched.isLive t = false ∧ m'.Coded t
  own : ∀ t, b t → m.sched.isLive t = true → m'.threads.get t = m.threads.get t
  handles : ∀ id ∈ m'.handles, id ∈ m.handles ∨ m'.Spawned id
  spawned : ∀ id, m.Spawned id → m'.Spawned id
  exclusive : ∀ l, (m.locks.get l).isExclusive = true → (m'.locks.get l).isExclusive = true
  claiming : ∀ t, b t → ∀ name, m.Kept t (.awaitOwner name) → m'.Kept t (.awaitOwner name)
  writing : ∀ t, b t → ∀ l, m.Kept t (.recheckWrite l) → m'.Kept t (.recheckWrite l)
  collecting : ∀ t, b t → m.Kept t .collect → m'.Kept t .collect
  mutex : ∀ t, b t → m'.sched.isStopped t = true → ∀ name,
    m.Pending t (.mutex name) → m'.Pending t (.mutex name)
  rendez : ∀ t, b t → m'.sched.isStopped t = true → ∀ r,
    m.Pending t (.rendez r) → m'.Pending t (.rendez r)
  reader : ∀ t, b t → m'.sched.isStopped t = true → ∀ l,
    m.Pending t (.reader l) → m'.Pending t (.reader l)
  writer : ∀ t, b t → m'.sched.isStopped t = true → ∀ l,
    m.Pending t (.writer l) → m'.Pending t (.writer l)
  thread : ∀ t, b t → m'.sched.isStopped t = true → ∀ id,
    m.Pending t (.thread id) → m'.Pending t (.thread id)
  descriptors : ∀ t, b t → m'.sched.isStopped t = true →
    m.Pending t .descriptors → m'.Pending t .descriptors
  others : ∀ t, b t → m'.sched.isStopped t = true → m.Pending t .others → m'.Pending t .others

namespace Spares

variable {b : ThreadId → Prop} {m m' m'' : Machine} {t : ThreadId}

theorem refl (b : ThreadId → Prop) (m : Machine) : Spares b m m where
  main := rfl
  live _ _ h := h
  stopped _ _ h := h
  stack _ _ := .inl rfl
  own _ _ _ := rfl
  handles _ h := .inl h
  spawned _ h := h
  exclusive _ h := h
  claiming _ _ _ h := h
  writing _ _ _ h := h
  collecting _ _ h := h
  mutex _ _ _ _ h := h
  rendez _ _ _ _ h := h
  reader _ _ _ _ h := h
  writer _ _ _ _ h := h
  thread _ _ _ _ h := h
  descriptors _ _ _ h := h
  others _ _ _ h := h

theorem trans (h : Spares b m m') (h' : Spares b m' m'') : Spares b m m'' where
  main := h'.main.trans h.main
  live t hb ht := h'.live t hb (h.live t hb ht)
  stopped t hb ht := h.stopped t hb (h'.stopped t hb ht)
  stack t hb := by
    rcases h'.stack t hb with heq | ⟨hdead, hcoded⟩
    · unfold Coded
      rw [heq]
      exact h.stack t hb
    · refine .inr ⟨?_, hcoded⟩
      by_contra hlive
      rw [h.live t hb (by simpa using hlive)] at hdead
      cases hdead
  own t hb hlive := (h'.own t hb (h.live t hb hlive)).trans (h.own t hb hlive)
  handles id hid := (h'.handles id hid).elim
    (fun hid => (h.handles id hid).imp_right (h'.spawned id)) .inr
  spawned id hid := h'.spawned id (h.spawned id hid)
  exclusive l hl := h'.exclusive l (h.exclusive l hl)
  claiming t hb name hk := h'.claiming t hb name (h.claiming t hb name hk)
  writing t hb l hk := h'.writing t hb l (h.writing t hb l hk)
  collecting t hb hk := h'.collecting t hb (h.collecting t hb hk)
  mutex t hb ht name hp := h'.mutex t hb ht name (h.mutex t hb (h'.stopped t hb ht) name hp)
  rendez t hb ht r hp := h'.rendez t hb ht r (h.rendez t hb (h'.stopped t hb ht) r hp)
  reader t hb ht l hp := h'.reader t hb ht l (h.reader t hb (h'.stopped t hb ht) l hp)
  writer t hb ht l hp := h'.writer t hb ht l (h.writer t hb (h'.stopped t hb ht) l hp)
  thread t hb ht id hp := h'.thread t hb ht id (h.thread t hb (h'.stopped t hb ht) id hp)
  descriptors t hb ht hp := h'.descriptors t hb ht (h.descriptors t hb (h'.stopped t hb ht) hp)
  others t hb ht hp := h'.others t hb ht (h.others t hb (h'.stopped t hb ht) hp)

/-- What the tasks of a bystander rely on, they can rely on further. -/
theorem kept (h : Spares b m m') (hb : b t) {x : Task} (hk : m.Kept t x) : m'.Kept t x := by
  cases x with
  | awaitOwner name => exact h.claiming t hb name hk
  | recheckWrite l => exact h.writing t hb l hk
  | awaitThread id => exact h.spawned id hk
  | collect => exact h.collecting t hb hk
  | drain => exact (hk : t = m.sched.main).trans h.main.symm
  | _ => trivial

/-- What a bystander waits for stays pending while it is stopped. -/
theorem pending (h : Spares b m m') (hb : b t) (ht : m'.sched.isStopped t = true) {a : Await}
    (hp : m.Pending t a) : m'.Pending t a := by
  cases a with
  | mutex name => exact h.mutex t hb ht name hp
  | rendez r => exact h.rendez t hb ht r hp
  | reader l => exact h.reader t hb ht l hp
  | writer l => exact h.writer t hb ht l hp
  | thread id => exact h.thread t hb ht id hp
  | descriptors => exact h.descriptors t hb ht hp
  | others => exact h.others t hb ht hp
  | wakeup => trivial

end Spares

/-! ## Changes of one part -/

variable {b : ThreadId → Prop} {me : ThreadId} {m : Machine}

/-- A thread's own part of the machine is nobody else's concern. -/
theorem spares_onThread (me : ThreadId) (f : Thread → Thread) (m : Machine) :
    Spares (· ≠ me) m { m with threads := m.threads.update me f } :=
  { Spares.refl (· ≠ me) m with
    stack := fun _ ht => .inl (congrArg Thread.stack ((Store.get_update ..).trans (if_neg ht)))
    own := fun _ ht _ => (Store.get_update ..).trans (if_neg ht) }

theorem spares_onSched {s : Sched} (h : Sched.Spares b m.sched s) :
    Spares b m { m with sched := s } :=
  have hspawned : ∀ id, m.Spawned id → Spawned id { m with sched := s } :=
    fun id hid => ⟨fun he => hid.1 (he.trans h.main), hid.2.imp_left (h.live id)⟩
  { Spares.refl b m with
    main := h.main
    live := fun t _ => h.live t
    stopped := h.stopped
    handles := fun _ hid => .inl hid
    spawned := hspawned
    collecting := fun t hb hk => ⟨h.live t hk.1, h.collecting t hb hk.1 hk.2⟩
    mutex := fun _ _ _ _ hp => hp
    rendez := fun _ _ _ _ hp => hp
    reader := fun _ _ _ _ hp => hp
    writer := fun _ _ _ _ hp => hp
    thread := fun t _ _ id hp => ⟨h.live id hp.1, hp.2.1, h.joiners id t hp.2.2⟩
    descriptors := fun t hb ht hp => h.polled t hb ht hp.1 hp.2
    others := fun _ _ _ ⟨hmain, u, hu, hlive⟩ => ⟨hmain.trans h.main.symm, u, hu, h.live u hlive⟩ }

/-- A change of a mutex, and wakeups for those of `b` that are handed the mutex. -/
theorem spares_mutex {name : MutexName} {x : Mutex} {s : Sched} (h : Sched.Spares b m.sched s)
    (hclaiming : ∀ t, b t →
      t ∈ (m.mutexes.get name).waiting ∨ (m.mutexes.get name).owner = some t →
      t ∈ x.waiting ∨ x.owner = some t)
    (hpending : ∀ t, b t → s.isStopped t = true →
      t ∈ (m.mutexes.get name).waiting ∧ (m.mutexes.get name).owner ≠ some t →
      t ∈ x.waiting ∧ x.owner ≠ some t) :
    Spares b m { m with sched := s, mutexes := m.mutexes.set name x } :=
  { spares_onSched h with
    claiming := fun t hb _ hk => Store.get_set_of_get
      (P := fun y : Mutex => t ∈ y.waiting ∨ y.owner = some t) (fun _ => hclaiming t hb) hk
    mutex := fun t hb ht _ hp => Store.get_set_of_get
      (P := fun y : Mutex => t ∈ y.waiting ∧ y.owner ≠ some t) (fun _ => hpending t hb ht) hp }

/-- A change of a rendezvous, and wakeups for those of `b` that lose their place. -/
theorem spares_rendez {r : RendezName} {x : Rendez} {s : Sched} (h : Sched.Spares b m.sched s)
    (hsleepers : ∀ t, b t → s.isStopped t = true →
      t ∈ (m.rendezvous.get r).sleepers → t ∈ x.sleepers) :
    Spares b m { m with sched := s, rendezvous := m.rendezvous.set r x } := by
  have hget : ∀ t, b t → s.isStopped t = true → ∀ r', t ∈ (m.rendezvous.get r').sleepers →
      t ∈ ((m.rendezvous.set r x).get r').sleepers := by
    intro t hb ht r' hmem
    exact Store.get_set_of_get (P := fun y : Rendez => t ∈ y.sleepers)
      (fun _ => hsleepers t hb ht) hmem
  exact { spares_onSched h with
    rendez := fun t hb ht r' hp => hget t hb ht r' hp
    reader := fun t hb ht l hp => ⟨hget t hb ht _ hp.1, hp.2⟩
    writer := fun t hb ht l hp => ⟨hget t hb ht _ hp.1, hp.2⟩ }

/-- A change of a lock, after wakeups for those of `b` that are granted it. -/
theorem Spares.setLock {m' : Machine} {l : LockName} {x : RwState} (h : Spares b m m')
    (hsame : m'.locks = m.locks)
    (hexclusive : (m.locks.get l).isExclusive = true → x.isExclusive = true)
    (hwriting : ∀ t, b t → t ∈ (m.locks.get l).writeQueue ∨ (m.locks.get l).writer = some t →
      t ∈ x.writeQueue ∨ x.writer = some t)
    (hreader : ∀ t, b t → m'.sched.isStopped t = true → m.Pending t (.reader l) →
      t ∈ x.readQueue ∧ t ∉ x.readers)
    (hwriter : ∀ t, b t → m'.sched.isStopped t = true → m.Pending t (.writer l) →
      t ∈ x.writeQueue ∧ x.writer ≠ some t) :
    Spares b m (m'.setLock l x) := by
  have hlock : ∀ k (P : RwState → Prop), (k = l → P (m.locks.get l) → P x) →
      P (m.locks.get k) → P ((m'.locks.set l x).get k) := by
    intro k P hP hk
    rw [hsame]
    exact Store.get_set_of_get hP hk
  exact { h with
    exclusive := fun k => hlock k (fun y => y.isExclusive = true) fun _ => hexclusive
    writing := fun t hb k => hlock k (fun y => t ∈ y.writeQueue ∨ y.writer = some t)
      fun _ => hwriting t hb
    reader := fun t hb ht k hp => ⟨(h.reader t hb ht k hp).1,
      hlock k (fun y => t ∈ y.readQueue ∧ t ∉ y.readers)
        (fun he _ => hreader t hb ht (he ▸ hp)) hp.2⟩
    writer := fun t hb ht k hp => ⟨(h.writer t hb ht k hp).1,
      hlock k (fun y => t ∈ y.writeQueue ∧ y.writer ≠ some t)
        (fun he _ => hwriter t hb ht (he ▸ hp)) hp.2⟩ }

end Machine

end Baton
