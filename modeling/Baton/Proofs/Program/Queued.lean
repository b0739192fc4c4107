import Baton.Proofs.Mutex
import Baton.Proofs.Program.Stacks

/-!
# Machine: queued threads

All mutexes and locks are regular, whatever programs do with them, and whoever is queued for one of
them, or is asleep in a rendezvous, has the task on its stack with which it comes back. What makes
this last is that a thread asks once: while it is queued, it does nothing but come back. A sleeper
that has been woken is not the owner of the mutex that it takes again, so that request is not
refused.
-/

namespace Baton

open RwState (IsQueued)

namespace Machine

variable {p : Program} {me t : ThreadId} {m m' : Machine} {ts : List Task} {x y : Task}
  {name : MutexName} {r : RendezName} {l : LockName} {side : RwSide}

/-! ## Mutexes -/

/-- Asking for a mutex is a panic for its owner, succeeds if the mutex is free, and else puts the
thread into the queue. -/
theorem acquire_cases (me : ThreadId) (name : MutexName) (m : Machine) :
    ((m.mutexes.get name).owner = some me ∧
      (m.acquire me name).mutexes.get name = m.mutexes.get name ∧
      ∃ text, (m.acquire me name).stackOf me =
        (m.stackOf me).filter Task.isCleanup ++ [.abort text]) ∨
    ((m.mutexes.get name).owner = none ∧
      (m.acquire me name).mutexes.get name =
        { m.mutexes.get name with owner := some me } ∧
      (m.acquire me name).stackOf me = m.stackOf me) ∨
    ((m.mutexes.get name).owner ≠ some me ∧ (m.mutexes.get name).owner ≠ none ∧
      (m.acquire me name).mutexes.get name =
        { m.mutexes.get name with waiting := (m.mutexes.get name).waiting ++ [me] } ∧
      (m.acquire me name).stackOf me = .suspend :: .awaitOwner name :: m.stackOf me) := by
  have hget : (m.acquire me name).mutexes.get name = ((m.mutexes.get name).request me).2 := by
    rw [mutexes_acquire, Store.get_set, if_pos rfl]
  rw [hget]
  unfold acquire Mutex.request
  by_cases hme : (m.mutexes.get name).owner = some me
  · simp only [if_pos hme]
    exact .inl ⟨hme, trivial, _, stackOf_panic me _ _⟩
  · by_cases hnone : (m.mutexes.get name).owner = none
    · simp only [if_neg hme, if_pos hnone]
      exact .inr (.inl ⟨hnone, trivial, rfl⟩)
    · simp only [if_neg hme, if_neg hnone]
      exact .inr (.inr ⟨hme, hnone, trivial, stackOf_push me _ _⟩)

/-- A queued thread goes on as the owner, or suspends again. -/
theorem awaitOwner_cases (me : ThreadId) (name : MutexName) (m : Machine) :
    ((m.mutexes.get name).owner = some me ∧ m.awaitOwner me name = m) ∨
    ((m.mutexes.get name).owner ≠ some me ∧
      (m.awaitOwner me name).stackOf me = .suspend :: .awaitOwner name :: m.stackOf me) := by
  unfold awaitOwner Mutex.isOwnedBy
  by_cases hme : (m.mutexes.get name).owner = some me
  · exact .inl ⟨hme, if_pos (beq_iff_eq.mpr hme)⟩
  · rw [if_neg (by simpa using hme)]
    exact .inr ⟨hme, stackOf_push me _ m⟩

/-- What brings a thread back was on its stack before, or the task is one that registers it. -/
theorem mem_or_comeback? (hx : x.isDoze = true ∨ x.isPlain = true ∨ x.isWait = true ∨
      x.isRecheck = true) (hne : ∀ code, x = .spawn code → me ≠ m.sched.ids.next)
    (hy : y.isReturn = true) (hmem : y ∈ (m.perform me x).stackOf me) :
    y ∈ m.stackOf me ∨ x.comeback? = some y := by
  have hrequest : ∀ (side : RwSide) l, x = side.request l → y ∈ m.stackOf me ∨
      some (side.recheck l) = some y := by
    rintro side l rfl
    rcases request_thread side l me m with ⟨-, hstack, -⟩ | ⟨-, hstack, -⟩ | ⟨-, hstack, -⟩ <;>
      rw [hstack] at hmem <;> grind [Task.isReturn]
  have hlook : ∀ (side : RwSide) l, x = side.recheck l → y ∈ m.stackOf me ∨
      some (side.recheck l) = some y := by
    rintro side l rfl
    rw [(recheck_thread side l me m).1] at hmem
    split at hmem <;> grind [Task.isReturn]
  cases x with
  | acquire name =>
      rcases acquire_cases me name m with ⟨-, -, text, hstack⟩ | ⟨-, -, hstack⟩ |
        ⟨-, -, -, hstack⟩ <;> rw [show m.perform me (.acquire name) = m.acquire me name from rfl,
          hstack] at hmem
      · grind [Task.isReturn]
      · exact .inl hmem
      · grind [Task.isReturn, Task.comeback?]
  | awaitOwner name =>
      rcases awaitOwner_cases me name m with ⟨-, he⟩ | ⟨-, hstack⟩
      · exact .inl (he ▸ hmem)
      · rw [show m.perform me (.awaitOwner name) = m.awaitOwner me name from rfl, hstack] at hmem
        grind [Task.isReturn, Task.comeback?]
  | release name => exact .inl ((stackOf_release name : (m.release me name).stackOf me = _) ▸ hmem)
  | suspend | leave => exact .inl hmem
  | sleepOn r name =>
      have hstack : (m.perform me (.sleepOn r name)).stackOf me =
          [.release name, .suspend, .leave r, .acquire name] ++ m.stackOf me :=
        stackOf_push me _ (m.setRendez r _)
      rw [hstack] at hmem
      grind [Task.isReturn, Task.comeback?]
  | requestRead l => exact hrequest .read l rfl
  | requestWrite l => exact hrequest .write l rfl
  | recheckRead l => exact hlook .read l rfl
  | recheckWrite l => exact hlook .write l rfl
  | _ =>
      exact .inl (mem_of_isReturn (by simpa [Task.isDoze, Task.isRecheck] using hx) rfl hne hy hmem)

/-- All mutexes are regular, and queued threads come back. -/
structure MutexQueues (m : Machine) : Prop where
  regular : ∀ name, (m.mutexes.get name).Regular
  queued : ∀ name t, t ∈ (m.mutexes.get name).waiting → .awaitOwner name ∈ m.stackOf t

/-- Nobody queues for another thread. -/
theorem waiting_of_perform (hne : t ≠ me)
    (ht : t ∈ ((m.perform me x).mutexes.get name).waiting) :
    t ∈ (m.mutexes.get name).waiting := by
  rcases mutex_perform me x m name with ⟨-, he⟩ | ⟨-, he⟩ | ⟨-, -, he⟩ | he <;> rw [he] at ht
  · unfold Mutex.request at ht
    split at ht
    · exact ht
    · split at ht
      · exact ht
      · exact (List.mem_append.mp ht).resolve_right (by simpa using hne)
  · unfold Mutex.tryTake at ht
    split at ht <;> exact ht
  · exact List.mem_of_mem_tail ht
  · exact ht

/-- Nobody takes a mutex for another thread, and it is handed only to a queued one. -/
theorem owner_of_perform (hne : t ≠ me)
    (ht : ((m.perform me x).mutexes.get name).owner = some t) :
    (m.mutexes.get name).owner = some t ∨ t ∈ (m.mutexes.get name).waiting := by
  rcases mutex_perform me x m name with ⟨-, he⟩ | ⟨-, he⟩ | ⟨-, -, he⟩ | he <;> rw [he] at ht
  · unfold Mutex.request at ht
    split at ht
    · exact .inl ht
    · split at ht
      · exact absurd (Option.some.inj ht).symm hne
      · exact .inl ht
  · unfold Mutex.tryTake at ht
    split at ht
    · exact absurd (Option.some.inj ht).symm hne
    · exact .inl ht
  · exact .inr (Mutex.mem_waiting_of_handOver ht)
  · exact .inl ht

/-- A thread is queued for a mutex only while it comes back to it. -/
theorem MutexQueues.not_waiting (h : m.MutexQueues) (hs : m.Sound)
    (hstack : m.stackOf me = x :: ts) (hx : x ≠ .awaitOwner name) (hsuspend : x ≠ .suspend) :
    me ∉ (m.mutexes.get name).waiting := by
  intro hmem
  obtain ⟨us, he⟩ := (hs.onCourse me).awaitOwner_of_mem (h.queued name me hmem)
  rw [hstack] at he
  rcases he with he | he
  · exact hx (List.cons.inj he).1
  · exact hsuspend (List.cons.inj he).1

theorem MutexQueues.perform (h : m.MutexQueues) (hs : m.Sound) (hstack : m.stackOf me = x :: ts)
    (hkept : ∀ t, t ≠ me → StackKept t m ((m.setStack me ts).perform me x)) :
    ((m.setStack me ts).perform me x).MutexQueues := by
  have hts : (m.setStack me ts).stackOf me = ts := stackOf_onThread ..
  refine ⟨fun name => ?_, fun name t ht => ?_⟩
  · rcases mutex_perform me x (m.setStack me ts) name with ⟨rfl, he⟩ | ⟨-, he⟩ | ⟨-, -, he⟩ | he <;>
      rw [he]
    · exact (h.regular name).request (h.not_waiting hs hstack (by simp) (by simp))
    · exact (h.regular name).tryTake
    · exact (h.regular name).handOver
    · exact h.regular name
  · by_cases hne : t = me
    · subst hne
      by_cases hwas : t ∈ (m.mutexes.get name).waiting
      · -- It was queued before: it looks in vain, or it suspends.
        obtain ⟨us, he⟩ := (hs.onCourse t).awaitOwner_of_mem (h.queued name t hwas)
        rw [hstack] at he
        rcases he with he | he
        · obtain ⟨rfl, rfl⟩ := List.cons.inj he
          rcases awaitOwner_cases t name (m.setStack t ts) with ⟨ho, -⟩ | ⟨-, hstack'⟩
          · exact absurd hwas ((h.regular name).unqueued t ho)
          · show _ ∈ ((m.setStack t ts).awaitOwner t name).stackOf t
            simp [hstack']
        · obtain ⟨rfl, rfl⟩ := List.cons.inj he
          show _ ∈ (m.setStack t _).stackOf t
          simp [hts]
      · rcases mutex_perform t x (m.setStack t ts) name with ⟨rfl, he⟩ | ⟨-, he⟩ | ⟨-, -, he⟩ | he
        · have ht : t ∈ (((m.setStack t ts).acquire t name).mutexes.get name).waiting := ht
          rcases acquire_cases t name (m.setStack t ts) with ⟨-, hsame, -⟩ | ⟨-, hsame, -⟩ |
            ⟨-, -, -, hstack'⟩
          · rw [hsame] at ht
            exact absurd ht hwas
          · rw [hsame] at ht
            exact absurd ht hwas
          · show _ ∈ ((m.setStack t ts).acquire t name).stackOf t
            simp [hstack']
        · rw [he] at ht
          unfold Mutex.tryTake at ht
          split at ht <;> exact absurd ht hwas
        · rw [he] at ht
          exact absurd (List.mem_of_mem_tail ht) hwas
        · rw [he] at ht
          exact absurd ht hwas
    · rw [(hkept t hne).mem_iff rfl]
      exact h.queued name t (waiting_of_perform (m := m.setStack me ts) hne ht)

theorem mutexQueues_machine (p : Program) : p.machine.MutexQueues where
  regular _ := Mutex.regular_free
  queued _ _ ht := absurd ht List.not_mem_nil

theorem Reaches.mutexQueues (h : Reaches p.machine m) (hids : m.sched.ids.handed ≤ UInt64.size) :
    m.MutexQueues :=
  h.keeps hids (mutexQueues_machine p)
    (fun _ _ _ _ hm hr hh hturn hstack hids' => hm.perform (hr.sound hh) hstack
      fun _ hne => hr.stackKept hh hturn hstack hids' hne)
    (fun _ _ hm _ => { hm with }) fun _ _ hm => { hm with }

/-! ## Rendezvous -/

/-- Nobody is asleep twice in a rendezvous, and sleepers come back. -/
structure SleepQueues (m : Machine) : Prop where
  nodup : ∀ r, (m.rendezvous.get r).sleepers.Nodup
  queued : ∀ r t, t ∈ (m.rendezvous.get r).sleepers → .leave r ∈ m.stackOf t

/-- Nobody is put to sleep by another thread, and whoever leaves is not asleep any more. -/
theorem sleepers_of_perform (ht : t ∈ ((m.perform me x).rendezvous.get r).sleepers) :
    (t ∈ (m.rendezvous.get r).sleepers ∧ (t = me → x ≠ .leave r)) ∨
      t = me ∧ ∃ name, x = .sleepOn r name := by
  by_cases hleave : x = .leave r
  · subst hleave
    have hget : (m.perform me (.leave r)).rendezvous.get r = (m.rendezvous.get r).leave me :=
      (Store.get_set ..).trans (if_pos rfl)
    rw [hget] at ht
    obtain ⟨ht, hne⟩ := Rendez.mem_leave.mp ht
    exact .inl ⟨ht, fun he => absurd he hne⟩
  · rcases rendez_perform me x m r with ⟨hx, he⟩ | ⟨hx, -⟩ | ⟨-, he⟩ | ⟨-, he⟩ | he
    · rw [he] at ht
      rcases List.mem_append.mp ht with ht | ht
      · exact .inl ⟨ht, fun _ => hleave⟩
      · exact .inr ⟨List.mem_singleton.mp ht, hx⟩
    · exact absurd hx hleave
    · rw [he] at ht
      exact .inl ⟨List.mem_of_mem_tail ht, fun _ => hleave⟩
    · rw [he] at ht
      cases ht
    · rw [he] at ht
      exact .inl ⟨ht, fun _ => hleave⟩

/-- A thread that goes to sleep is not asleep yet. -/
theorem SleepQueues.not_sleeping (h : m.SleepQueues) (hs : m.Sound)
    (hstack : m.stackOf me = .sleepOn r name :: ts) (r' : RendezName) :
    me ∉ (m.rendezvous.get r').sleepers := by
  intro hmem
  obtain ⟨_, us, he⟩ := (hs.onCourse me).leave_of_mem (h.queued r' me hmem)
  rw [hstack] at he
  simp at he

theorem SleepQueues.perform (h : m.SleepQueues) (hs : m.Sound) (hstack : m.stackOf me = x :: ts)
    (hkept : ∀ t, t ≠ me → StackKept t m ((m.setStack me ts).perform me x)) :
    ((m.setStack me ts).perform me x).SleepQueues := by
  have hts : (m.setStack me ts).stackOf me = ts := stackOf_onThread ..
  refine ⟨fun r => ?_, fun r t ht => ?_⟩
  · have hwas := h.nodup r
    rcases rendez_perform me x (m.setStack me ts) r with ⟨⟨name, rfl⟩, he⟩ | ⟨-, he⟩ | ⟨-, he⟩ |
      ⟨-, he⟩ | he <;> rw [he]
    · refine List.nodup_append.mpr ⟨hwas, List.nodup_singleton me, ?_⟩
      rintro u hu v hv rfl
      exact h.not_sleeping hs hstack r (List.mem_singleton.mp hv ▸ hu)
    · exact hwas.filter _
    · exact hwas.sublist (List.tail_sublist _)
    · exact List.nodup_nil
    · exact hwas
  · rcases sleepers_of_perform ht with ⟨hwas, hleave⟩ | ⟨rfl, name, rfl⟩
    · have hmem := h.queued r t hwas
      by_cases hne : t = me
      · subst hne
        obtain ⟨name, us, he⟩ := (hs.onCourse t).leave_of_mem hmem
        rw [hstack] at he
        rcases he with he | he | ⟨_, he⟩
        · exact absurd (List.cons.inj he).1 (hleave rfl)
        · obtain ⟨rfl, rfl⟩ := List.cons.inj he
          show _ ∈ (m.setStack t _).stackOf t
          simp [hts]
        · obtain ⟨rfl, rfl⟩ := List.cons.inj he
          show _ ∈ ((m.setStack t _).release t _).stackOf t
          simp [stackOf_release, hts]
      · rwa [(hkept t hne).mem_iff rfl]
    · show _ ∈ ((m.setStack t ts).sleepOn t r name).stackOf t
      simp [Machine.sleepOn]

theorem sleepQueues_machine (p : Program) : p.machine.SleepQueues where
  nodup _ := List.nodup_nil
  queued _ _ ht := absurd ht List.not_mem_nil

theorem Reaches.sleepQueues (h : Reaches p.machine m) (hids : m.sched.ids.handed ≤ UInt64.size) :
    m.SleepQueues :=
  h.keeps hids (sleepQueues_machine p)
    (fun _ _ _ _ hm hr hh hturn hstack hids' => hm.perform (hr.sound hh) hstack
      fun _ hne => hr.stackKept hh hturn hstack hids' hne)
    (fun _ _ hm _ => { hm with }) fun _ _ hm => { hm with }

/-! ## The mutex that a sleeper takes again -/

/-- A thread on its way back from a sleep, or to a second look, does not own the mutex that it is
about to take. -/
def Dozing (t : ThreadId) (m : Machine) : List Task → Prop
  | .release name :: .suspend :: .leave _ :: .acquire back :: _ => back = name
  | .suspend :: .leave _ :: .acquire name :: _ => (m.mutexes.get name).owner ≠ some t
  | .leave _ :: .acquire name :: _ => (m.mutexes.get name).owner ≠ some t
  | .acquire name :: x :: _ => x.isRecheck = true → (m.mutexes.get name).owner ≠ some t
  | _ => True

/-- A thread that is on no such way. -/
theorem dozing_of_not_mem (h : ∀ y ∈ ts, y.isReturn = false) : Dozing t m ts := by
  have hleave : ∀ r, .leave r ∉ ts := fun r hmem => absurd (h _ hmem) (by simp [Task.isReturn])
  unfold Dozing
  split
  · exact (hleave _ (.tail _ (.tail _ (.head _)))).elim
  · exact (hleave _ (.tail _ (.head _))).elim
  · exact (hleave _ (.head _)).elim
  · rename_i name x us
    intro hx
    exact absurd (Task.isReturn_of_isRecheck hx) (by simp [h x (by simp)])
  · trivial

theorem dozing_of_plain (h : ∀ y ∈ ts, y.isPlain = true) : Dozing t m ts :=
  dozing_of_not_mem fun y hy => by
    by_contra hreturn
    have hplain := Task.not_isPlain_of_isReturn (by simpa using hreturn)
    exact Bool.false_ne_true (hplain.symm.trans (h y hy))

theorem Tail.dozing (h : Tail t m ts) : Dozing t m' ts := by
  cases h with
  | plain hall => exact dozing_of_plain hall
  | @recheck x us _ _ _ => cases x <;> trivial

/-- A thread that is on its way stays so as long as it is not handed the mutex. -/
theorem Dozing.mono (h : Dozing t m ts)
    (howner : ∀ name, .awaitOwner name ∉ ts → (m'.mutexes.get name).owner = some t →
      (m.mutexes.get name).owner = some t) (hcourse : Course t m ts) : Dozing t m' ts := by
  have hnot : ∀ name,
      (∀ us, ts ≠ .awaitOwner name :: us ∧ ts ≠ .suspend :: .awaitOwner name :: us) →
      .awaitOwner name ∉ ts := by
    intro name hshape hmem
    obtain ⟨us, he | he⟩ := hcourse.awaitOwner_of_mem hmem
    · exact (hshape us).1 he
    · exact (hshape us).2 he
  have hstays := fun name hshape => howner name (hnot name hshape)
  clear hnot howner hcourse
  revert h hstays
  unfold Dozing
  split
  · exact fun h _ => h
  · exact fun h hstays ho => h (hstays _ (by simp) ho)
  · exact fun h hstays ho => h (hstays _ (by simp) ho)
  · exact fun h hstays hx ho => h hx (hstays _ (by simp) ho)
  · exact fun _ _ => trivial

/-- The running thread, when it is on no such way. -/
theorem dozing_perform_of_not_isDoze (hx : x.isDoze = false)
    (hkind : x.isPlain = true ∨ x.isWait = true ∨ x.isRecheck = true) (hp : m.Plain me)
    (hne : ∀ code, x = .spawn code → me ≠ m.sched.ids.next) :
    Dozing me m' ((m.perform me x).stackOf me) := by
  have hrequest : ∀ (side : RwSide) l, x = side.request l →
      Dozing me m' ((m.perform me x).stackOf me) := by
    rintro side l rfl
    rcases request_thread side l me m with ⟨-, hstack, -⟩ | ⟨-, hstack, -⟩ | ⟨-, hstack, -⟩ <;>
      rw [hstack] <;> trivial
  by_cases hregisters : x.registers = true
  · cases x with
    | requestRead l => exact hrequest .read l rfl
    | requestWrite l => exact hrequest .write l rfl
    | acquire | sleepOn => cases hx
    | _ => cases hregisters
  · by_cases hrecheck : x.isRecheck = true
    · have hlook : ∀ (side : RwSide) l, x = side.recheck l →
          Dozing me m' ((m.perform me x).stackOf me) := by
        rintro side l rfl
        rw [(recheck_thread side l me m).1]
        split <;> trivial
      cases x with
      | recheckRead l => exact hlook .read l rfl
      | recheckWrite l => exact hlook .write l rfl
      | _ => cases hrecheck
    · refine dozing_of_not_mem fun y hy => ?_
      by_contra hreturn
      have hreturn : y.isReturn = true := by simpa using hreturn
      have hmem := mem_of_isReturn (hkind.imp_right (·.resolve_right hrecheck))
        (by simpa using hregisters) hne hreturn hy
      exact not_mem_of_plain (Task.not_isPlain_of_isReturn hreturn) hp hmem

/-- The mutex that a sleeper releases is not its own after that: it is not queued for it. -/
theorem owner_ne_of_release (h : (m.mutexes.get name).Regular) :
    ((m.release me name).mutexes.get name).owner ≠ some me := by
  rw [mutexes_release]
  split
  · rename_i ho
    rw [Store.get_set, if_pos rfl]
    exact fun he => h.unqueued me ho (Mutex.mem_waiting_of_handOver he)
  · assumption

/-- The running thread, when it is on such a way. -/
theorem Dozing.perform (h : Dozing me m (x :: ts)) (hm : ∀ name, (m.mutexes.get name).Regular)
    (hcourse : Course me m (x :: ts)) (hstack : m.stackOf me = ts) (hx : x.isDoze = true) :
    Dozing me (m.perform me x) ((m.perform me x).stackOf me) := by
  cases x with
  | acquire name =>
      show Dozing me (m.acquire me name) ((m.acquire me name).stackOf me)
      rcases acquire_cases me name m with ⟨-, -, text, hstack'⟩ | ⟨-, -, hstack'⟩ |
        ⟨-, -, -, hstack'⟩ <;> rw [hstack']
      · refine dozing_of_plain fun y hy => ?_
        exact plain_panic me text m y (by rwa [stackOf_panic])
      · exact hstack ▸ (hcourse.tail_of_acquire (.inl rfl)).dozing
      · trivial
  | awaitOwner name =>
      show Dozing me (m.awaitOwner me name) ((m.awaitOwner me name).stackOf me)
      rcases awaitOwner_cases me name m with ⟨-, he⟩ | ⟨-, hstack'⟩
      · rw [he, hstack]
        exact (hcourse.tail_of_acquire (.inr rfl)).dozing
      · rw [hstack']
        trivial
  | sleepOn r name =>
      show Dozing me (m.sleepOn me r name) ((m.sleepOn me r name).stackOf me)
      unfold Machine.sleepOn
      rw [stackOf_push]
      exact rfl
  | release name =>
      show Dozing me (m.release me name) ((m.release me name).stackOf me)
      rw [stackOf_release, hstack]
      cases hcourse with
      | parked hp =>
          cases hp with
          | tail ht =>
              cases ht with
              | plain hall => exact dozing_of_plain fun y hy => hall y (List.mem_cons_of_mem _ hy)
              | recheck hr => cases hr
          | wait hw => cases hw
      | release =>
          obtain rfl := h
          exact owner_ne_of_release (hm _)
  | suspend =>
      show Dozing me (m.onSched _) (m.stackOf me)
      rw [hstack]
      cases hcourse with
      | parked hp =>
          cases hp with
          | tail ht =>
              cases ht with
              | plain hall => exact absurd (hall _ List.mem_cons_self) (by simp [Task.isPlain])
              | recheck hr => cases hr
          | wait hw => cases hw
      | suspend ha _ hp =>
          cases hp with
          | tail ht => exact ht.dozing
          | @wait x us hw => cases x <;> trivial
          | acquire => cases ha
          | awaitOwner => trivial
          | leave => exact h
  | leave r =>
      show Dozing me (m.leave me r) (m.stackOf me)
      rw [hstack]
      cases hcourse with
      | parked hp =>
          cases hp with
          | tail ht =>
              cases ht with
              | plain hall => exact absurd (hall _ List.mem_cons_self) (by simp [Task.isPlain])
              | recheck hr => cases hr
          | wait hw => cases hw
          | @leave _ name us ht =>
              cases us with
              | nil => trivial
              | cons x us => exact fun _ => h
  | _ => cases hx

theorem Reaches.dozing (h : Reaches p.machine m) (hids : m.sched.ids.handed ≤ UInt64.size) :
    ∀ t, Dozing t m (m.stackOf t) := by
  refine h.keeps (P := fun m => ∀ t, Dozing t m (m.stackOf t)) hids
    (fun t => dozing_of_plain (plain_machine p t)) ?_ (fun _ _ hm _ => hm) fun _ _ hm => hm
  intro m me x ts hd hr hh hturn hstack hids' t
  have hs := hr.sound hh
  have hm := hr.mutexQueues hh
  have hts : (m.setStack me ts).stackOf me = ts := stackOf_onThread ..
  by_cases hne : t = me
  · subst hne
    have hcourse : Course t (m.setStack t ts) (x :: ts) :=
      (hstack ▸ hs.onCourse t).mono (fun _ hk => hk) (fun _ hp => hp) rfl
    cases hx : x.isDoze with
    | true =>
        exact Dozing.perform (m := m.setStack t ts) (hstack ▸ hd t) hm.regular hcourse hts hx
    | false =>
        obtain ⟨hkind, hplain⟩ := hcourse.plain_of_not_isDoze hx
        refine dozing_perform_of_not_isDoze hx hkind (fun y hy => hplain y (hts ▸ hy)) ?_
        rintro code rfl
        exact hs.ne_next code hturn hids'
  · rcases hr.stackKept hh hturn hstack hids' hne with hsame | ⟨-, hplain⟩
    · rw [hsame]
      refine (hd t).mono (fun name hnot ho => ?_) (hs.onCourse t)
      exact (owner_of_perform (m := m.setStack me ts) hne ho).resolve_right
        fun hmem => hnot (hm.queued name t hmem)
    · exact dozing_of_plain hplain

/-! ## Locks -/

/-- The tasks of a sleep leave alone what stands below them. -/
theorem mem_of_isDoze (hx : x.isDoze = true)
    (howner : ∀ name, x = .acquire name → (m.mutexes.get name).owner ≠ some me)
    (hmem : y ∈ m.stackOf me) : y ∈ (m.perform me x).stackOf me := by
  cases x with
  | acquire name =>
      show y ∈ (m.acquire me name).stackOf me
      rcases acquire_cases me name m with ⟨ho, -⟩ | ⟨-, -, hstack⟩ | ⟨-, -, -, hstack⟩
      · exact absurd ho (howner name rfl)
      · rwa [hstack]
      · rw [hstack]
        exact .tail _ (.tail _ hmem)
  | awaitOwner name =>
      show y ∈ (m.awaitOwner me name).stackOf me
      rcases awaitOwner_cases me name m with ⟨-, he⟩ | ⟨-, hstack⟩
      · rwa [he]
      · rw [hstack]
        exact .tail _ (.tail _ hmem)
  | release name => exact (stackOf_release name : (m.release me name).stackOf me = _).symm ▸ hmem
  | suspend | leave => exact hmem
  | sleepOn r name =>
      show y ∈ (m.sleepOn me r name).stackOf me
      unfold Machine.sleepOn
      rw [stackOf_push]
      exact List.mem_append_right _ hmem
  | _ => cases hx

/-- All locks are regular, and queued threads look again. -/
structure LockQueues (m : Machine) : Prop where
  regular : ∀ l, (m.locks.get l).Regular
  queued : ∀ l side t, t ∈ (m.locks.get l).queue side → side.recheck l ∈ m.stackOf t

/-- A thread is queued for a lock only while it sleeps for it. -/
theorem LockQueues.not_isQueued (h : m.LockQueues) (hs : m.Sound) (hstack : m.stackOf me = x :: ts)
    (hdoze : x.isDoze = false) (hx : x.isRecheck = false) : ¬ (m.locks.get l).IsQueued me := by
  have hnot : ∀ side : RwSide, me ∉ (m.locks.get l).queue side := by
    intro side hmem
    have hlook := hstack ▸ h.queued l side me hmem
    rcases (hstack ▸ hs.onCourse me).recheck_of_mem (side.isRecheck_recheck l) hlook with
      ⟨rfl, -⟩ | ⟨hdozes, -⟩
    · exact Bool.false_ne_true (hx.symm.trans (side.isRecheck_recheck l))
    · exact Bool.false_ne_true (hdoze.symm.trans hdozes)
  rintro (hmem | hmem)
  · exact hnot .read hmem
  · exact hnot .write hmem

theorem LockQueues.not_isQueued_request (h : m.LockQueues) (hs : m.Sound)
    (hstack : m.stackOf me = side.request l :: ts) : ¬ (m.locks.get l).IsQueued me :=
  h.not_isQueued hs hstack (by cases side <;> rfl) (by cases side <;> rfl)

theorem LockQueues.not_isQueued_release (h : m.LockQueues) (hs : m.Sound)
    (hstack : m.stackOf me = side.release l :: ts) : ¬ (m.locks.get l).IsQueued me :=
  h.not_isQueued hs hstack (by cases side <;> rfl) (by cases side <;> rfl)

/-- A second look changes nothing, and fails for a thread that is still queued. -/
theorem LockQueues.recheck (h : m.LockQueues) (hs : m.Sound)
    (hstack : m.stackOf me = side.recheck l :: ts) :
    ((m.locks.get l).recheck me side).2 = m.locks.get l ∧
      (me ∈ (m.locks.get l).queue side → ((m.locks.get l).recheck me side).1 = false) := by
  cases side with
  | read =>
      rw [RwState.recheck, (h.regular l).recheckRead]
      exact ⟨rfl, fun hmem => decide_eq_false (not_not.mpr hmem)⟩
  | write =>
      have hkept : m.Kept me (.recheckWrite l) := (hstack ▸ hs.onCourse me).kept_head
      rw [RwState.recheck, (h.regular l).recheckWrite hkept]
      refine ⟨rfl, fun hmem => decide_eq_false fun hw => ?_⟩
      exact (h.regular l).writer_unqueued me hw (.inr hmem)

/-- What a task of the running thread does to a lock. -/
theorem LockQueues.change (h : m.LockQueues) (hs : m.Sound) (hstack : m.stackOf me = x :: ts)
    (l : LockName) : ((((m.setStack me ts).perform me x).locks.get l).Regular) ∧
      ∃ es, RwState.Change me (m.locks.get l) es
        (((m.setStack me ts).perform me x).locks.get l) := by
  have hr := h.regular l
  rcases lock_perform me x (m.setStack me ts) l with ⟨side, rfl, he⟩ | ⟨side, rfl, he⟩ |
    ⟨rfl, he⟩ | ⟨rfl, he⟩ | ⟨side, out, rfl, hout, he⟩ | he
  · rw [he]
    have hq := h.not_isQueued_request hs hstack
    exact ⟨hr.request hq side, _, RwState.change_request hq side⟩
  · rw [he, show (m.setStack me ts).locks = m.locks from rfl, (h.recheck hs hstack).1]
    exact ⟨hr, _, .same⟩
  · rw [he]
    exact ⟨hr.tryRead (h.not_isQueued hs hstack rfl rfl), _, RwState.change_tryRead⟩
  · rw [he]
    exact ⟨hr.tryWrite (h.not_isQueued hs hstack rfl rfl), _, RwState.change_tryWrite⟩
  · rw [he]
    have hq := h.not_isQueued_release hs hstack
    exact ⟨hr.release hout, _, hr.change_release hq hout⟩
  · rw [he]
    exact ⟨hr, _, .same⟩

/-- A thread that is queued from now on asks for a hold. -/
theorem LockQueues.asks (h : m.LockQueues) (hs : m.Sound) (hstack : m.stackOf me = x :: ts)
    (hwas : me ∉ (m.locks.get l).queue side)
    (hmem : me ∈ (((m.setStack me ts).perform me x).locks.get l).queue side) :
    x = side.request l ∧ ((m.locks.get l).request me side).1 = .queued := by
  rcases lock_perform me x (m.setStack me ts) l with ⟨d, rfl, he⟩ | ⟨d, rfl, he⟩ |
    ⟨rfl, he⟩ | ⟨rfl, he⟩ | ⟨d, out, rfl, hout, he⟩ | he <;> rw [he] at hmem
  · have hq := h.not_isQueued_request hs hstack
    obtain ⟨rfl, hverdict⟩ := RwState.mem_queue_request hq hmem
    exact ⟨rfl, hverdict⟩
  · rw [show (m.setStack me ts).locks = m.locks from rfl, (h.recheck hs hstack).1] at hmem
    exact absurd hmem hwas
  · have hq := h.not_isQueued (l := l) hs hstack rfl rfl
    exact absurd (RwState.isQueued_of_mem_queue hmem) (RwState.not_queued_tryRead hq)
  · have hq := h.not_isQueued (l := l) hs hstack rfl rfl
    exact absurd (RwState.isQueued_of_mem_queue hmem) (RwState.not_queued_tryWrite hq)
  · have hq := h.not_isQueued_release hs hstack
    refine absurd (RwState.isQueued_of_mem_queue hmem) ?_
    cases d with
    | read => exact RwState.not_queued_releaseRead hq hout
    | write => exact RwState.not_queued_releaseWrite hq hout
  · exact absurd hmem hwas

theorem LockQueues.perform (h : m.LockQueues) (hs : m.Sound)
    (hdozing : ∀ t, Dozing t m (m.stackOf t)) (hstack : m.stackOf me = x :: ts)
    (hkept : ∀ t, t ≠ me → StackKept t m ((m.setStack me ts).perform me x)) :
    ((m.setStack me ts).perform me x).LockQueues := by
  have hts : (m.setStack me ts).stackOf me = ts := stackOf_onThread ..
  refine ⟨fun l => (h.change hs hstack l).1, fun l side t ht => ?_⟩
  obtain ⟨-, es, hchange⟩ := h.change hs hstack l
  by_cases hne : t = me
  · subst hne
    by_cases hwas : t ∈ (m.locks.get l).queue side
    · have hcourse := hstack ▸ hs.onCourse t
      have hlook := hstack ▸ h.queued l side t hwas
      rcases hcourse.recheck_of_mem (side.isRecheck_recheck l) hlook with ⟨rfl, -⟩ | ⟨hdoze, hmem⟩
      · rw [(recheck_thread side l t (m.setStack t ts)).1,
          show (m.setStack t ts).locks = m.locks from rfl, (h.recheck hs hstack).2 hwas]
        simp
      · refine mem_of_isDoze (m := m.setStack t ts) hdoze ?_ (by rwa [hts])
        rintro name rfl
        obtain ⟨hr, us, rfl, -⟩ := (hcourse.tail_of_acquire (.inl rfl)).isRecheck_of_mem
          (Task.not_isPlain_of_isReturn (Task.isReturn_of_isRecheck (side.isRecheck_recheck l)))
          hmem
        have hd := hdozing t
        rw [hstack] at hd
        exact hd hr
    · -- It was not queued before, so it asks now.
      obtain ⟨rfl, hverdict⟩ := h.asks hs hstack hwas ht
      rcases request_thread side l t (m.setStack t ts) with ⟨hv, -⟩ | ⟨-, hstack', -⟩ | ⟨hv, -⟩
      · cases hv.symm.trans hverdict
      · simp [hstack']
      · cases hv.symm.trans hverdict
  · have hwas : t ∈ (m.locks.get l).queue side := by
      have hcount := hchange.count_queue hne side
      have hpos := List.count_pos_iff.mpr ht
      exact List.count_pos_iff.mp (by omega)
    rw [(hkept t hne).mem_iff
      (Task.not_isPlain_of_isReturn (Task.isReturn_of_isRecheck (side.isRecheck_recheck l)))]
    exact h.queued l side t hwas

theorem lockQueues_machine (p : Program) : p.machine.LockQueues where
  regular _ := RwState.regular_free
  queued _ side _ ht := by cases side <;> cases ht

theorem Reaches.lockQueues (h : Reaches p.machine m) (hids : m.sched.ids.handed ≤ UInt64.size) :
    m.LockQueues :=
  h.keeps hids (lockQueues_machine p)
    (fun _ _ _ _ hm hr hh hturn hstack hids' => hm.perform (hr.sound hh) (hr.dozing hh) hstack
      fun _ hne => hr.stackKept hh hturn hstack hids' hne)
    (fun _ _ hm _ => { hm with }) fun _ _ hm => { hm with }

end Machine

end Baton
