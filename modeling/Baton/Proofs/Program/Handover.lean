import Baton.Proofs.Program.Queued

/-!
# Machine: mutexes are handed on in the order of arrival

An observer of one mutex notes who arrives, whom the mutex goes to, whose call returns with it, and
who gives it up. Whatever the task, the mutex makes one of a few moves (`Mutex.Move`), and each of
them keeps the account: who has arrived was granted the mutex or stands in the queue, in this order.

## Implementation notes

That the mutex goes to a thread is read off the owner before and after a task, and that a call
returns off the stack of the caller. The hand-over and the return of the new owner's call are
different moments: in between the owner is still inside its call.
-/

namespace Baton

/-- Something that happened at a mutex. -/
inductive MutexEvent where
  /-- The thread called for the mutex. An attempt counts only if it succeeds. -/
  | arrived (t : ThreadId)
  /-- The mutex went to the thread. -/
  | granted (t : ThreadId)
  /-- The thread's call returned with the mutex. -/
  | returned (t : ThreadId)
  /-- The thread lost the mutex. -/
  | released (t : ThreadId)
  deriving DecidableEq

namespace MutexEvent

/-- The threads that arrived, in this order. -/
def arrivals (es : List MutexEvent) : List ThreadId :=
  es.filterMap fun | arrived t => some t | _ => none

/-- The threads that the mutex went to, in this order. -/
def grants (es : List MutexEvent) : List ThreadId :=
  es.filterMap fun | granted t => some t | _ => none

/-- The threads whose calls returned, in this order. -/
def returns (es : List MutexEvent) : List ThreadId :=
  es.filterMap fun | returned t => some t | _ => none

/-- The threads that gave the mutex up, in this order. -/
def releases (es : List MutexEvent) : List ThreadId :=
  es.filterMap fun | released t => some t | _ => none

variable {es es' : List MutexEvent}

@[simp] theorem arrivals_append : arrivals (es ++ es') = arrivals es ++ arrivals es' :=
  List.filterMap_append

@[simp] theorem grants_append : grants (es ++ es') = grants es ++ grants es' :=
  List.filterMap_append

@[simp] theorem returns_append : returns (es ++ es') = returns es ++ returns es' :=
  List.filterMap_append

@[simp] theorem releases_append : releases (es ++ es') = releases es ++ releases es' :=
  List.filterMap_append

/-- What a change of the owner shows. -/
def ofOwners (before after : Option ThreadId) : List MutexEvent :=
  if before = after then [] else before.toList.map released ++ after.toList.map granted

end MutexEvent

open MutexEvent

namespace Mutex

/-- What a task of `me` does to a mutex, and the events that it leaves. The flags tell whether `me`
is inside a call for the mutex before and after. -/
inductive Move (me : ThreadId) (x : Mutex) : Bool → List MutexEvent → Mutex → Bool → Prop where
  | same {c c' : Bool} (h : x.owner = some me → c' = c) : Move me x c [] x c'
  | take (hfree : x.owner = none) {c : Bool} :
      Move me x c [arrived me, granted me, returned me] { x with owner := some me } false
  | queue (hme : x.owner ≠ some me) (htaken : x.owner ≠ none) {c : Bool} :
      Move me x c [arrived me] { x with waiting := x.waiting ++ [me] } true
  /-- The call of the owner returns. -/
  | resume (howner : x.owner = some me) : Move me x true [returned me] x false
  | release (howner : x.owner = some me) {c' : Bool} :
      Move me x false (released me :: x.waiting.head?.toList.map granted) x.handOver c'

variable {x x' : Mutex} {me : ThreadId} {es : List MutexEvent} {c c' : Bool}

/-- Who arrives joins the queue at its end, and who is granted the mutex is taken from its front. -/
theorem Move.arrivals (h : Move me x c es x' c') (hx : x.Regular) :
    x.waiting ++ arrivals es = grants es ++ x'.waiting := by
  cases h with
  | same => simp [MutexEvent.arrivals, grants]
  | take hfree => simp [MutexEvent.arrivals, grants, hx.idle hfree]
  | queue => simp [MutexEvent.arrivals, grants]
  | resume => simp [MutexEvent.arrivals, grants]
  | release => cases hw : x.waiting <;> simp [MutexEvent.arrivals, grants, handOver, hw]

/-- The mutex goes to nobody else before its owner has given it up. -/
theorem Move.grants (h : Move me x c es x' c') :
    x.owner.toList ++ grants es = releases es ++ x'.owner.toList := by
  cases h with
  | same => simp [MutexEvent.grants, releases]
  | take hfree => simp [MutexEvent.grants, releases, hfree]
  | queue => simp [MutexEvent.grants, releases]
  | resume => simp [MutexEvent.grants, releases]
  | release howner =>
      cases hw : x.waiting <;> simp [MutexEvent.grants, releases, handOver, hw, howner]

/-- Whoever is granted the mutex comes back to its call, and the call returns, before the mutex goes
to another thread. -/
theorem Move.returns (h : Move me x c es x' c') (hx : x.Regular) {f f' : ThreadId → Bool}
    (hf : f me = c) (hf' : f' me = c') (hother : ∀ t, t ≠ me → f' t = f t)
    (hwaiting : ∀ t ∈ x.waiting, f t = true) :
    x.owner.toList.filter f ++ MutexEvent.grants es =
      MutexEvent.returns es ++ x'.owner.toList.filter f' := by
  cases h with
  | same hsame =>
      have hkeep : x.owner.toList.filter f' = x.owner.toList.filter f := by
        refine List.filter_congr fun t ht => ?_
        have ho : x.owner = some t := Option.mem_toList.mp ht
        by_cases hne : t = me
        · subst hne
          rw [hf, hf', hsame ho]
        · exact hother t hne
      simp [MutexEvent.grants, MutexEvent.returns, hkeep]
  | take hfree => simp [MutexEvent.grants, MutexEvent.returns, hfree, hf']
  | queue hme =>
      have hkeep : x.owner.toList.filter f' = x.owner.toList.filter f :=
        List.filter_congr fun t ht => hother t fun he => hme (he ▸ Option.mem_toList.mp ht)
      simp [MutexEvent.grants, MutexEvent.returns, hkeep]
  | resume howner => simp [MutexEvent.grants, MutexEvent.returns, howner, hf, hf']
  | release howner =>
      have hnext : ∀ t, x.waiting.head? = some t → f' t = true := by
        intro t ht
        have hmem := List.mem_of_head? ht
        rw [hother t fun he => hx.unqueued me howner (he ▸ hmem)]
        exact hwaiting t hmem
      cases hw : x.waiting with
      | nil => simp [MutexEvent.grants, MutexEvent.returns, handOver, hw, howner, hf]
      | cons u us =>
          have hu := hnext u (by simp [hw])
          simp [MutexEvent.grants, MutexEvent.returns, handOver, hw, howner, hf, hu]

end Mutex

/-- Whether the task waits for the mutex. -/
def Task.awaits (name : MutexName) : Task → Bool
  | awaitOwner n => n == name
  | _ => false

namespace Machine

variable {p : Program} {me t : ThreadId} {m m' : Machine} {ts : List Task} {x : Task}
  {name : MutexName} {τ : List MutexEvent}

/-! ## What is observed -/

/-- Whether a thread is inside a call for a mutex. -/
def isCalling (name : MutexName) (t : ThreadId) (m : Machine) : Bool :=
  (m.stackOf t).any (Task.awaits name)

/-- Whether a call for the mutex begins with the task. An attempt that fails is none, and neither is
the call of the owner, which panics. -/
def arrives (name : MutexName) (me : ThreadId) (m : Machine) : Task → Bool
  | .acquire n => n = name ∧ (m.mutexes.get name).owner ≠ some me
  | .tryAcquire n => n = name ∧ (m.tryAcquire me n).replyOf me = .bool true
  | _ => false

/-- Whether a call returns with the task. -/
def comesBack (name : MutexName) (me : ThreadId) (m : Machine) : Task → Bool
  | .acquire n =>
    n = name ∧ (m.mutexes.get name).owner ≠ some me ∧ (m.acquire me n).isCalling name me = false
  | .awaitOwner n => n = name ∧ (m.awaitOwner me n).isCalling name me = false
  | .tryAcquire n => n = name ∧ (m.tryAcquire me n).replyOf me = .bool true
  | _ => false

/-- What happens at a mutex when `me` carries out a task. -/
def mutexEvents (name : MutexName) (me : ThreadId) (m : Machine) (x : Task) : List MutexEvent :=
  (if m.arrives name me x then [arrived me] else []) ++
    ofOwners (m.mutexes.get name).owner ((m.perform me x).mutexes.get name).owner ++
    if m.comesBack name me x then [returned me] else []

theorem isCalling_iff : m.isCalling name t = true ↔ .awaitOwner name ∈ m.stackOf t := by
  unfold isCalling
  rw [List.any_eq_true]
  constructor
  · rintro ⟨x, hx, hn⟩
    cases x with
    | awaitOwner n => exact beq_iff_eq.mp hn ▸ hx
    | _ => cases hn
  · exact fun h => ⟨_, h, beq_self_eq_true name⟩

theorem isCalling_eq_false_iff : m.isCalling name t = false ↔ .awaitOwner name ∉ m.stackOf t := by
  rw [← isCalling_iff, Bool.not_eq_true]

theorem tryAcquire_thread (me : ThreadId) (name : MutexName) (m : Machine) :
    (m.tryAcquire me name).replyOf me = .bool (decide ((m.mutexes.get name).owner = none)) ∧
      (m.tryAcquire me name).stackOf me = m.stackOf me := by
  refine ⟨(replyOf_answer ..).trans ?_, stackOf_answer ..⟩
  congr 1
  exact Bool.eq_iff_iff.mpr (Mutex.tryTake_fst_iff.trans decide_eq_true_iff.symm)

/-- The move of a mutex with a task of `me`. The task has been taken off the stack. -/
abbrev MovesWith (name : MutexName) (me : ThreadId) (m : Machine) (x : Task) : Prop :=
  Mutex.Move me (m.mutexes.get name) (x.awaits name || m.isCalling name me)
    (m.mutexEvents name me x) ((m.perform me x).mutexes.get name)
    ((m.perform me x).isCalling name me)

theorem moves_acquire (hout : .awaitOwner name ∉ m.stackOf me) :
    m.MovesWith name me (.acquire name) := by
  unfold MovesWith mutexEvents arrives comesBack
  rw [show m.perform me (.acquire name) = m.acquire me name from rfl,
    isCalling_eq_false_iff.mpr hout]
  rcases acquire_cases me name m with ⟨ho, he, text, hstack⟩ | ⟨ho, he, hstack⟩ |
    ⟨hme, hsome, he, hstack⟩
  · have hback : (m.acquire me name).isCalling name me = false :=
      isCalling_eq_false_iff.mpr (by simp [hstack, Task.isCleanup])
    rw [he, hback]
    simpa [ho, ofOwners, Task.awaits] using Mutex.Move.same fun _ => rfl
  · have hback : (m.acquire me name).isCalling name me = false :=
      isCalling_eq_false_iff.mpr (hstack ▸ hout)
    rw [he, hback]
    simpa [ho, ofOwners, hback] using Mutex.Move.take ho
  · have hinside : (m.acquire me name).isCalling name me = true :=
      isCalling_iff.mpr (by simp [hstack])
    rw [he, hinside]
    simpa [hme, ofOwners, hinside] using Mutex.Move.queue hme hsome

theorem moves_awaitOwner (hout : .awaitOwner name ∉ m.stackOf me) :
    m.MovesWith name me (.awaitOwner name) := by
  unfold MovesWith mutexEvents arrives comesBack
  have hsame : (m.awaitOwner me name).mutexes = m.mutexes :=
    (sameLocks_perform me m (x := .awaitOwner name) rfl).mutexes
  rw [show m.perform me (.awaitOwner name) = m.awaitOwner me name from rfl, hsame,
    show Task.awaits name (.awaitOwner name) = true from beq_self_eq_true name]
  rcases awaitOwner_cases me name m with ⟨ho, he⟩ | ⟨ho, hstack⟩
  · have hback : (m.awaitOwner me name).isCalling name me = false := by
      rw [he]
      exact isCalling_eq_false_iff.mpr hout
    rw [hback]
    simpa [ofOwners, hback] using Mutex.Move.resume ho
  · have hinside : (m.awaitOwner me name).isCalling name me = true :=
      isCalling_iff.mpr (by simp [hstack])
    simpa [ofOwners, hinside] using Mutex.Move.same fun he => absurd he ho

theorem moves_tryAcquire (hout : .awaitOwner name ∉ m.stackOf me) :
    m.MovesWith name me (.tryAcquire name) := by
  unfold MovesWith mutexEvents arrives comesBack
  have hget : (m.perform me (.tryAcquire name)).mutexes.get name =
      ((m.mutexes.get name).tryTake me).2 := (Store.get_set ..).trans (if_pos rfl)
  obtain ⟨hreply, hstack⟩ := tryAcquire_thread me name m
  have hback : (m.perform me (.tryAcquire name)).isCalling name me = false :=
    isCalling_eq_false_iff.mpr (hstack ▸ hout)
  rw [hget, hback, isCalling_eq_false_iff.mpr hout]
  unfold Mutex.tryTake
  by_cases hfree : (m.mutexes.get name).owner = none
  · simpa [hfree, hreply, ofOwners] using Mutex.Move.take hfree
  · simpa [hfree, hreply, ofOwners, Task.awaits] using Mutex.Move.same fun _ => rfl

theorem moves_release (hx : (m.mutexes.get name).Regular) (hout : .awaitOwner name ∉ m.stackOf me) :
    m.MovesWith name me (.release name) := by
  unfold MovesWith mutexEvents arrives comesBack
  rw [show m.perform me (.release name) = m.release me name from rfl, mutexes_release,
    isCalling_eq_false_iff.mpr hout]
  by_cases ho : (m.mutexes.get name).owner = some me
  · have hother : some me ≠ (m.mutexes.get name).waiting.head? := fun he =>
      hx.unqueued me ho (List.mem_of_head? he.symm)
    rw [if_pos ho, Store.get_set, if_pos rfl]
    simpa [ho, ofOwners, hother, Mutex.handOver, Task.awaits] using Mutex.Move.release ho
  · rw [if_neg ho]
    simpa [ofOwners] using Mutex.Move.same fun he => absurd he ho

/-- A thread that waits for a mutex below its next task is about to suspend. -/
theorem Course.awaitOwner_below (h : Course me m (x :: ts)) (hmem : .awaitOwner name ∈ ts) :
    x = .suspend ∧ m.Pending me (.mutex name) := by
  obtain ⟨us, he | he⟩ := h.awaitOwner_of_mem (List.mem_cons_of_mem x hmem)
  · obtain ⟨rfl, rfl⟩ := List.cons.inj he
    exact absurd hmem (h.tail_of_acquire (.inr rfl)).awaitOwner_not_mem
  · obtain ⟨rfl, rfl⟩ := List.cons.inj he
    refine ⟨rfl, ?_⟩
    cases h with
    | parked hp => exact absurd (hp.awaitOwner_of_mem (List.mem_cons_of_mem _ hmem)) (by simp)
    | suspend ha hpending _ =>
        cases ha
        exact hpending

/-- Whatever the task, the mutex makes one of its moves. -/
theorem moves_perform (hx : (m.mutexes.get name).Regular) (hcourse : Course me m (x :: ts))
    (hts : m.stackOf me = ts) (hne : ∀ code, x = .spawn code → me ≠ m.sched.ids.next) :
    m.MovesWith name me x := by
  have hbelow : .awaitOwner name ∈ m.stackOf me → _ := fun hmem =>
    hcourse.awaitOwner_below (hts ▸ hmem)
  have hout : x ≠ .suspend → .awaitOwner name ∉ m.stackOf me := fun hne hmem =>
    hne (hbelow hmem).1
  by_cases hacquire : x = .acquire name
  · subst hacquire
    exact moves_acquire (hout (by simp))
  by_cases hawait : x = .awaitOwner name
  · subst hawait
    exact moves_awaitOwner (hout (by simp))
  by_cases htry : x = .tryAcquire name
  · subst htry
    exact moves_tryAcquire (hout (by simp))
  by_cases hrelease : x = .release name
  · subst hrelease
    exact moves_release hx (hout (by simp))
  have hsame : (m.perform me x).mutexes.get name = m.mutexes.get name := by
    rcases mutex_perform me x m name with ⟨he, -⟩ | ⟨he, -⟩ | ⟨he, -⟩ | he
    · exact absurd he hacquire
    · exact absurd he htry
    · exact absurd he hrelease
    · exact he
  have harrives : m.arrives name me x = false := by
    unfold arrives
    split <;> simp_all
  have hback : m.comesBack name me x = false := by
    unfold comesBack
    split <;> simp_all
  have hawaits : x.awaits name = false := by
    unfold Task.awaits
    split <;> simp_all
  unfold MovesWith mutexEvents
  rw [hsame, harrives, hback, hawaits]
  suffices hkeep : (m.mutexes.get name).owner = some me →
      (m.perform me x).isCalling name me = m.isCalling name me by
    simpa [ofOwners] using Mutex.Move.same hkeep
  intro ho
  have hnot : .awaitOwner name ∉ m.stackOf me := fun hmem => (hbelow hmem).2.2 ho
  rw [isCalling_eq_false_iff.mpr hnot, isCalling_eq_false_iff]
  intro hmem
  have hkind : x.isDoze = true ∨ x.isPlain = true ∨ x.isWait = true ∨ x.isRecheck = true := by
    cases hdoze : x.isDoze with
    | true => exact .inl rfl
    | false => exact .inr (hcourse.plain_of_not_isDoze hdoze).1
  rcases mem_or_comeback? hkind hne rfl hmem with hwas | hcome
  · exact hnot hwas
  · unfold Task.comeback? at hcome
    split at hcome <;> simp_all

/-! ## Runs -/

/-- The account of what has happened at a mutex. -/
structure InOrder (name : MutexName) (τ : List MutexEvent) (m : Machine) : Prop where
  arrivals : arrivals τ = grants τ ++ (m.mutexes.get name).waiting
  grants : grants τ = releases τ ++ (m.mutexes.get name).owner.toList
  returns : MutexEvent.grants τ =
    returns τ ++ (m.mutexes.get name).owner.toList.filter (m.isCalling name)

theorem isCalling_cons (hstack : m.stackOf me = x :: ts) :
    m.isCalling name me = (x.awaits name || (m.setStack me ts).isCalling name me) := by
  have hts : (m.setStack me ts).stackOf me = ts := stackOf_onThread ..
  rw [isCalling, isCalling, hstack, hts, List.any_cons]

theorem InOrder.perform (h : InOrder name τ m) (hq : m.MutexQueues) (hs : m.Sound)
    (hturn : m.sched.turn = .held me) (hstack : m.stackOf me = x :: ts)
    (hids : ((m.setStack me ts).perform me x).sched.ids.handed ≤ UInt64.size)
    (hkept : ∀ t, t ≠ me → StackKept t m ((m.setStack me ts).perform me x)) :
    InOrder name (τ ++ (m.setStack me ts).mutexEvents name me x)
      ((m.setStack me ts).perform me x) := by
  have hcourse : Course me (m.setStack me ts) (x :: ts) :=
    (hstack ▸ hs.onCourse me).mono (fun _ hk => hk) (fun _ hp => hp) rfl
  have hmove : Mutex.Move me (m.mutexes.get name) _ _ _ _ :=
    moves_perform (m := m.setStack me ts) (hq.regular name) hcourse (stackOf_onThread ..) (by
      rintro code rfl
      exact hs.ne_next code hturn hids)
  have hreturns := hmove.returns (hq.regular name) (isCalling_cons hstack) rfl
    (fun t hne => Bool.eq_iff_iff.mpr (isCalling_iff.trans
      (((hkept t hne).mem_iff rfl).trans isCalling_iff.symm)))
    (fun t ht => isCalling_iff.mpr (hq.queued name t ht))
  constructor
  · rw [arrivals_append, grants_append, h.arrivals, List.append_assoc,
      hmove.arrivals (hq.regular name), List.append_assoc]
  · rw [grants_append, releases_append, h.grants, List.append_assoc, hmove.grants,
      List.append_assoc]
  · rw [grants_append, returns_append, h.returns, List.append_assoc, hreturns, List.append_assoc]

theorem Observed.inOrder (h : Observed (ofTask (mutexEvents name)) p τ m)
    (hids : m.sched.ids.handed ≤ UInt64.size) : InOrder name τ m := by
  refine h.keeps (P := InOrder name) hids ⟨rfl, rfl, rfl⟩ ?_ ?_
    (fun _ _ _ hm _ _ => { hm with }) fun _ _ _ hm => { hm with }
  · intro τ m me x ts hm hr hh hturn hstack hids'
    rw [ofTask_of_held hturn hstack]
    exact hm.perform (hr.mutexQueues hh) (hr.sound hh) hturn hstack hids'
      fun _ hne => hr.stackKept hh hturn hstack hids' hne
  · intro τ m s hm _ _ hturn _
    rw [ofTask_of_free hturn, List.append_nil]
    exact { hm with }

/-- What the running thread sees of a mutex when it carries out a task. -/
structure Serves (name : MutexName) (me : ThreadId) (x : Task) (ts : List Task)
    (m m' : Machine) : Prop where
  /-- A call returns with the free mutex, or puts its thread at the end of the queue. -/
  lock : x = .acquire name → (m.mutexes.get name).owner ≠ some me →
    ((m.mutexes.get name).owner = none ∧ m'.stackOf me = ts ∧
      m'.mutexes.get name = ⟨some me, []⟩) ∨
    ((m.mutexes.get name).owner ≠ none ∧ m'.stackOf me = .suspend :: .awaitOwner name :: ts ∧
      m'.mutexes.get name =
        ⟨(m.mutexes.get name).owner, (m.mutexes.get name).waiting ++ [me]⟩)
  /-- The call of the owner panics. -/
  relock : x = .acquire name → (m.mutexes.get name).owner = some me →
    m'.mutexes.get name = m.mutexes.get name ∧
      ∃ text, m'.stackOf me = ts.filter Task.isCleanup ++ [.abort text]
  /-- A call that was suspended returns to the owner, and suspends again in the queue. -/
  await : x = .awaitOwner name → m'.mutexes.get name = m.mutexes.get name ∧
    ((m.mutexes.get name).owner = some me ∧ m'.stackOf me = ts ∨
      me ∈ (m.mutexes.get name).waiting ∧ m'.stackOf me = .suspend :: .awaitOwner name :: ts)
  /-- An attempt succeeds exactly if the mutex is free. -/
  attempt : x = .tryAcquire name → m'.stackOf me = ts ∧
    ((m.mutexes.get name).owner = none ∧ m'.replyOf me = .bool true ∧
        m'.mutexes.get name = ⟨some me, []⟩ ∨
      (m.mutexes.get name).owner ≠ none ∧ m'.replyOf me = .bool false ∧
        m'.mutexes.get name = m.mutexes.get name)
  /-- A release by the owner hands the mutex to the head of the queue, and wakes it. -/
  unlock : x = .release name → (m.mutexes.get name).owner = some me →
    m'.mutexes.get name =
        ⟨(m.mutexes.get name).waiting.head?, (m.mutexes.get name).waiting.tail⟩ ∧
      ∀ t, (m.mutexes.get name).waiting.head? = some t → m'.sched.isStopped t = false
  /-- Nothing else changes the mutex. -/
  other : x ≠ .acquire name → x ≠ .tryAcquire name →
    (x = .release name → (m.mutexes.get name).owner ≠ some me) →
    m'.mutexes.get name = m.mutexes.get name

/-- A release wakes the thread that it hands the mutex to. -/
theorem isStopped_release (ho : (m.mutexes.get name).owner = some me)
    (ht : (m.mutexes.get name).waiting.head? = some t) :
    (m.release me name).sched.isStopped t = false := by
  have hnext : (m.mutexes.get name).handOver.owner = some t := ht
  unfold release Mutex.isOwnedBy
  simp [ho, hnext, onSched]

theorem serves_perform (hq : m.MutexQueues) (hs : m.Sound) (hstack : m.stackOf me = x :: ts) :
    Serves name me x ts m ((m.setStack me ts).perform me x) := by
  have hts : (m.setStack me ts).stackOf me = ts := stackOf_onThread ..
  constructor
  · rintro rfl hme
    rcases acquire_cases me name (m.setStack me ts) with ⟨ho, -⟩ | ⟨ho, he, hstack'⟩ |
      ⟨-, hsome, he, hstack'⟩
    · exact absurd ho hme
    · have hfree : m.mutexes.get name = ⟨none, []⟩ := by
        rw [← (hq.regular name).idle ho, ← ho]
        rfl
      refine .inl ⟨ho, hstack'.trans hts, he.trans ?_⟩
      rw [show (m.setStack me ts).mutexes = m.mutexes from rfl, hfree]
    · exact .inr ⟨hsome, by rwa [hts] at hstack', he⟩
  · rintro rfl ho
    rcases acquire_cases me name (m.setStack me ts) with ⟨-, he, text, hstack'⟩ | ⟨hnone, -⟩ |
      ⟨hme, -⟩
    · exact ⟨he, text, by rwa [hts] at hstack'⟩
    · exact absurd (ho.symm.trans hnone) (by simp)
    · exact absurd ho hme
  · rintro rfl
    have hsame : ((m.setStack me ts).perform me (.awaitOwner name)).mutexes = m.mutexes :=
      (sameLocks_perform me _ (x := .awaitOwner name) rfl).mutexes
    refine ⟨by rw [hsame], ?_⟩
    rcases awaitOwner_cases me name (m.setStack me ts) with ⟨ho, he⟩ | ⟨ho, hstack'⟩
    · exact .inl ⟨ho, (congrArg (stackOf me) he).trans hts⟩
    · have hkept : m.Kept me (.awaitOwner name) := (hstack ▸ hs.onCourse me).kept_head
      exact .inr ⟨hkept.resolve_right ho, by rwa [hts] at hstack'⟩
  · rintro rfl
    obtain ⟨hreply, hstack'⟩ := tryAcquire_thread me name (m.setStack me ts)
    refine ⟨hstack'.trans hts, ?_⟩
    have hget : ((m.setStack me ts).perform me (.tryAcquire name)).mutexes.get name =
        ((m.mutexes.get name).tryTake me).2 := (Store.get_set ..).trans (if_pos rfl)
    rw [hget]
    by_cases ho : (m.mutexes.get name).owner = none
    · refine .inl ⟨ho, hreply.trans (congrArg Reply.bool (decide_eq_true ho)), ?_⟩
      rw [Mutex.tryTake, if_pos ho, (hq.regular name).idle ho]
    · refine .inr ⟨ho, hreply.trans (congrArg Reply.bool (decide_eq_false ho)), ?_⟩
      rw [Mutex.tryTake, if_neg ho]
  · rintro rfl ho
    refine ⟨?_, fun t ht => isStopped_release ho ht⟩
    have hmutexes := mutexes_release me name (m.setStack me ts)
    rw [show (m.setStack me ts).mutexes = m.mutexes from rfl, if_pos ho] at hmutexes
    rw [show (m.setStack me ts).perform me (.release name) = (m.setStack me ts).release me name from
      rfl, hmutexes, Store.get_set, if_pos rfl]
    rfl
  · intro hacquire htry hrelease
    rcases mutex_perform me x (m.setStack me ts) name with ⟨he, -⟩ | ⟨he, -⟩ | ⟨he, ho, -⟩ | he
    · exact absurd he hacquire
    · exact absurd he htry
    · exact absurd ho (hrelease he)
    · exact he

/-- Whoever is inside a call for a mutex is queued for it, or owns it by now. -/
theorem mem_waiting_iff (hq : m.MutexQueues) (hs : m.Sound) :
    t ∈ (m.mutexes.get name).waiting ↔
      m.isCalling name t = true ∧ (m.mutexes.get name).owner ≠ some t := by
  constructor
  · intro ht
    exact ⟨isCalling_iff.mpr (hq.queued name t ht), fun ho => (hq.regular name).unqueued t ho ht⟩
  · rintro ⟨hcalling, ho⟩
    obtain ⟨us, he | he⟩ := (hs.onCourse t).awaitOwner_of_mem (isCalling_iff.mp hcalling)
    · have hkept : m.Kept t (.awaitOwner name) := (he ▸ hs.onCourse t).kept_head
      exact hkept.resolve_right ho
    · exact ((he ▸ hs.onCourse t).awaitOwner_below List.mem_cons_self).2.1

/-- A mutex excludes, and serves those first who come first, at any moment of any run in which no
giver has panicked. A free mutex has no queue; the queue holds whoever is inside a call and is not
the owner, once each and in the order of arrival: those who arrived are those whom the mutex went
to, and after them the queue. The mutex goes to a thread when its owner before has given it up, and
the calls return in that order, the last one as soon as the owner comes back to it. Of the tasks of
the running thread, a call returns to the owner only, an attempt succeeds only on a free mutex, a
release by the owner hands the mutex to the head of the queue, and nothing else changes it. -/
theorem Observed.mutex_in_order (h : Observed (ofTask (mutexEvents name)) p τ m)
    (hids : m.sched.ids.history.Nodup) :
    ((m.mutexes.get name).owner = none → (m.mutexes.get name).waiting = []) ∧
    (m.mutexes.get name).waiting.Nodup ∧
    (∀ t, t ∈ (m.mutexes.get name).waiting ↔
      m.isCalling name t = true ∧ (m.mutexes.get name).owner ≠ some t) ∧
    arrivals τ = grants τ ++ (m.mutexes.get name).waiting ∧
    grants τ = releases τ ++ (m.mutexes.get name).owner.toList ∧
    grants τ = returns τ ++ (m.mutexes.get name).owner.toList.filter (m.isCalling name) ∧
    (∀ me x ts m', m.sched.turn = .held me → m.stackOf me = x :: ts → m.step = some m' →
      Serves name me x ts m m') ∧
    ∀ m', (∀ t, m.sched.turn ≠ .held t) → m.step = some m' → m'.mutexes = m.mutexes := by
  have hhanded := IdAllocator.nodup_history_iff.mp hids
  have hq := h.reaches.mutexQueues hhanded
  have hs := h.reaches.sound hhanded
  have horder := h.inOrder hhanded
  refine ⟨(hq.regular name).idle, (hq.regular name).nodup, fun t => mem_waiting_iff hq hs,
    horder.arrivals, horder.grants, horder.returns, ?_, ?_⟩
  · intro me x ts m' hturn hstack hstep
    rw [eq_perform_of_step hturn hstack hstep]
    exact serves_perform hq hs hstack
  · intro m' hturn hstep
    rcases step_cases hstep with ⟨me, x, ts, hheld, -⟩ | ⟨-, s, -, rfl⟩
    · exact absurd hheld (hturn me)
    · rfl

/-- The main thread takes a mutex, and two threads queue up for it until the main thread releases
it. -/
def lineOfThree : Program :=
  { Program.blank with code :=
      [[.lock 0, .spawn 1, .spawn 1, .yield, .unlock 0, .join 2, .join 3], [.lock 0, .unlock 0]] }

/-- After thirty-two steps the second thread owns the mutex and has not come back to its call, and
the third one is queued. -/
theorem mutex_in_order_lineOfThree :
    (lineOfThree.final 32).sched.ids.history.Nodup ∧
      ((lineOfThree.final 32).mutexes.get (.raw 0)).waiting = [3] ∧
      arrivals (lineOfThree.machine.notes (ofTask (mutexEvents (.raw 0))) 32) = [1, 2, 3] ∧
      grants (lineOfThree.machine.notes (ofTask (mutexEvents (.raw 0))) 32) = [1, 2] ∧
      returns (lineOfThree.machine.notes (ofTask (mutexEvents (.raw 0))) 32) = [1] := by
  have hids : (lineOfThree.final 32).sched.ids.history.Nodup := by decide
  have hmutex : (lineOfThree.final 32).mutexes.get (.raw 0) = ⟨some 2, [3]⟩ := by decide
  have hreleases :
      releases (lineOfThree.machine.notes (ofTask (mutexEvents (.raw 0))) 32) = [1] := by
    decide
  have hinside : (lineOfThree.final 32).isCalling (.raw 0) 2 = true := by decide
  obtain ⟨-, -, -, harrivals, hgrants, hreturns, -⟩ :=
    (observed_final (ofTask (mutexEvents (.raw 0))) 32 lineOfThree).mutex_in_order hids
  rw [hmutex, hreleases] at hgrants
  rw [hmutex, hgrants] at harrivals hreturns
  rw [List.filter_eq_self.mpr (by simpa using hinside)] at hreturns
  exact ⟨hids, by rw [hmutex], harrivals, hgrants, (List.append_cancel_right hreturns).symm⟩

end Machine

end Baton
