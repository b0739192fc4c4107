import Baton.Proofs.Program.Released
import Baton.Proofs.Program.Secluded
import Mathlib.Logic.Function.Basic

/-!
# Machine: cells belong to their guards

No instruction names the mutex of a cell: a program takes it by a block, and gives it up at the end
of the block and while it sleeps on a condition. So whatever else the code does, a thread owns the
cell of each guard that its stack is to release, unless it is inside a call that takes the cell or
returns it. From the stack one reads off which claims a thread relies on; further claims do no harm.
-/

namespace Baton

/-- Whether the task has nothing to do with the mutexes of cells and their guards. An instruction or
a sleep on a condition has not either, although it leads to tasks that have. -/
def Task.avoidsCells : Task → Bool
  | acquire (.cell _) | tryAcquire (.cell _) | awaitOwner (.cell _) | release (.cell _) => false
  | sleepOn _ (.cell _) | sleepUntil _ (.cell _) .. => false
  | enter _ (.cell _) _ | drop (.cell _) | showCell _ => false
  | _ => true

/-- Whether the task may lead to tasks that work on cells. -/
def Task.leadsToCells : Task → Bool
  | instr _ | condSleep _ | condSleepWhile .. => true
  | _ => false

/-- Whether a thread may carry the task out in the middle of a call for a cell. -/
def Task.isPassed : Task → Bool
  | answer _ | suspend | leave _ => true
  | _ => false

theorem Task.avoidsCells_of_isLocal {x : Task} (h : x.isLocal = true) : x.avoidsCells = true := by
  cases x <;> first | rfl | cases h

namespace Machine

open Function (update)

variable {p : Program} {m m' : Machine} {me t : ThreadId} {x : Task} {ts us : List Task} {r : Reply}
  {n : Nat → Nat} {c : Nat} {l : LockName} {name : MutexName}

/-- A thread outside all calls for cells has a claim for each guard that its stack is to release. -/
inductive Covered : List Task → (Nat → Nat) → Prop where
  | nil {n : Nat → Nat} : Covered [] n
  | aside {x : Task} {ts : List Task} {n : Nat → Nat} : x.avoidsCells = true → Covered ts n →
      Covered (x :: ts) n
  | drop {c : Nat} {ts : List Task} {n : Nat → Nat} : 0 < n c →
      Covered ts (update n c (n c - 1)) → Covered (.drop (.cell c) :: ts) n

/-- A thread that goes on with a stack and a reply has the claims that it relies on. -/
def Backed : List Task → Reply → (Nat → Nat) → Prop
  | [], _, _ => True
  | x :: ts, r, n => match x with
    | .answer r' => Backed ts r' n
    | .suspend | .leave _ | .awaitOwner (.cell _) => Backed ts r n
    -- A thread that owns the cell already panics, and only its guards are left to it.
    | .acquire (.cell c) =>
      (0 < n c → ∀ text, Covered (ts.filter Task.isCleanup ++ [.abort text]) n) ∧
        Backed ts r (update n c (n c + 1))
    | .tryAcquire (.cell c) =>
      Backed ts (.bool true) (update n c (n c + 1)) ∧ Backed ts (.bool false) n
    | .release (.cell c) => 0 < n c ∧ Backed ts r (update n c (n c - 1))
    | .sleepOn _ (.cell c) => n c = 1 ∧ Backed ts r n
    | .enter _ (.cell c) _ => Covered (if r.isRefusal then ts else .drop (.cell c) :: ts) n
    | .showCell c => Covered (if r.isRefusal then ts else .drop (.cell c) :: ts) n
    | x => Covered (x :: ts) n

/-! ## Outside all calls for cells -/

namespace Covered

theorem append (hus : ∀ y ∈ us, y.avoidsCells = true) (h : Covered ts n) :
    Covered (us ++ ts) n := by
  induction us with
  | nil => exact h
  | cons y us ih =>
      exact .aside (hus y List.mem_cons_self) (ih fun z hz => hus z (List.mem_cons_of_mem y hz))

theorem of_cons (h : Covered (x :: ts) n) (hx : x.avoidsCells = true) : Covered ts n := by
  cases h with
  | aside _ hts => exact hts
  | drop => cases hx

/-- After a panic the open guards are left. -/
theorem panic (h : Covered ts n) (text : String) :
    Covered (ts.filter Task.isCleanup ++ [.abort text]) n := by
  induction h with
  | nil => exact .aside rfl .nil
  | @aside x ts n hx _ ih =>
      rw [List.filter_cons]
      split
      · exact .aside hx ih
      · exact ih
  | drop hpos _ ih => exact .drop hpos ih

/-- Outside all calls for cells a thread goes on with any reply. -/
theorem backed (h : Covered ts n) (r : Reply) : Backed ts r n := by
  induction h generalizing r with
  | nil => trivial
  | @aside x ts n hx hts ih =>
      cases x with
      | answer r' => exact ih r'
      | suspend | leave => exact ih r
      | acquire name | tryAcquire name | awaitOwner name | release name | sleepOn _ name
      | sleepUntil _ name =>
          cases name with
          | cell => cases hx
          | raw | inner => exact .aside rfl hts
      | enter _ g | drop g =>
          cases g with
          | cell => cases hx
          | shared | exclusive => exact .aside rfl hts
      | showCell => cases hx
      | _ => exact .aside rfl hts
  | drop hpos hts => exact .drop hpos hts

/-- The innermost guard is among those that the thread has claims for. -/
theorem pos_of_findSome? (h : Covered ts n) (hguard : ts.findSome? (fun
    | .drop g => some g
    | _ => none) = some (.cell c)) : 0 < n c := by
  induction h with
  | nil => cases hguard
  | @aside x ts n hx _ ih =>
      rw [List.findSome?_cons] at hguard
      cases x with
      | drop g =>
          obtain rfl := Option.some.inj hguard
          cases hx
      | _ => exact ih hguard
  | drop hpos =>
      rw [List.findSome?_cons] at hguard
      cases hguard
      exact hpos

end Covered

/-- A task that avoids cells, and is none of those that a call passes, stands outside all calls. -/
theorem Backed.covered (h : Backed (x :: ts) r n) (hx : x.avoidsCells = true)
    (hpass : x.isPassed = false) : Covered ts n := by
  have hrest : Covered (x :: ts) n → Covered ts n := fun h => h.of_cons hx
  cases x with
  | answer | suspend | leave => cases hpass
  | acquire name | tryAcquire name | awaitOwner name | release name | sleepOn _ name
  | sleepUntil _ name =>
      cases name with
      | cell => cases hx
      | raw | inner => exact hrest h
  | enter _ g | drop g =>
      cases g with
      | cell => cases hx
      | shared | exclusive => exact hrest h
  | showCell => cases hx
  | _ => exact hrest h

/-! ## Calls for cells -/

/-- A guard that is obtained comes with a claim. -/
theorem Covered.obtain (h : Covered ts n) (c : Nat) :
    Covered (.drop (.cell c) :: ts) (update n c (n c + 1)) := by
  refine .drop (by simp) ?_
  rw [Function.update_self, Nat.add_sub_cancel, Function.update_idem, Function.update_eq_self]
  exact h

/-- A block obtains its guard, or it does not and the reply says so. -/
theorem Covered.backed_scope (h : Covered ts n) (o : Opening) (body : List Instr) (r : Reply) :
    Backed (o.tasks ++ .enter o.name o.guard body :: ts) r n := by
  cases o with
  | cell c => exact ⟨fun _ => h.panic, h.obtain c⟩
  | tryCell c => exact ⟨h.obtain c, h⟩
  | read | write | tryRead | tryWrite =>
      exact (Covered.aside rfl (.aside rfl (.aside rfl h))).backed r

theorem avoidsCells_code (is : List Instr) : ∀ y ∈ is.map Task.instr, y.avoidsCells = true := by
  intro y hy
  obtain ⟨i, -, rfl⟩ := List.mem_map.mp hy
  rfl

/-- Whatever the code of a thread is, it begins without guards. -/
theorem covered_code (is : List Instr) (n : Nat → Nat) :
    Covered (is.map Task.instr ++ [.exit]) n :=
  .append (avoidsCells_code is) (.aside rfl .nil)

/-- Blocks and diagnostics obtain the guard of a cell, and nothing else does. -/
theorem Covered.backed_tasks (h : Covered ts n) (i : Instr) (host : Host) (me : ThreadId)
    (r : Reply) (memory : Memory) (r' : Reply) :
    Backed (i.tasks host me r memory ++ ts) r' n := by
  have haside : ∀ {us : List Task}, us.all Task.avoidsCells = true → Backed (us ++ ts) r' n :=
    fun hus => (h.append (List.all_eq_true.mp hus)).backed r'
  cases i with
  | scope o body =>
      have hopen := h.backed_scope o body r'
      rw [← List.singleton_append, ← List.append_assoc] at hopen
      cases host with
      | outside => exact haside rfl
      | coop | native => exact hopen
  | showCell c =>
      have hrest : Covered (.report (Instr.showCell c).name :: ts) n := .aside rfl h
      cases host with
      | outside => exact haside rfl
      | coop | native => exact ⟨hrest.obtain c, hrest⟩
  | loop k body =>
      cases k with
      | zero => exact h.backed r'
      | succ k =>
          cases body with
          | nil => exact h.backed r'
          | cons i body =>
              refine (h.append (List.forall_mem_append.mpr ⟨avoidsCells_code _, ?_⟩)).backed r'
              exact List.all_eq_true.mp rfl
  | whilst b body =>
      show Backed
        ((if b r memory then body.map Task.instr ++ [.instr (.whilst b body)] else []) ++ ts) r' n
      split
      · refine (h.append (List.forall_mem_append.mpr ⟨avoidsCells_code _, ?_⟩)).backed r'
        exact List.all_eq_true.mp rfl
      · exact h.backed r'
  | _ => exact haside (by cases host <;> rfl)

/-- A sleep gives the cell up and takes it again. -/
theorem backed_sleep (k : RendezName) (hone : n c = 1) (h : Backed ts r n) :
    Backed (.release (.cell c) :: .suspend :: .leave k :: .acquire (.cell c) :: ts) r n := by
  refine ⟨hone ▸ Nat.one_pos, fun hpos => ?_, ?_⟩
  · rw [Function.update_self, hone] at hpos
    cases hpos
  · rw [Function.update_self, Function.update_idem, Nat.sub_add_cancel (hone ▸ Nat.le_refl 1),
      Function.update_eq_self]
    exact h

/-! ## Claims -/

/-- How often the thread claims each cell. -/
def cellClaims (t : ThreadId) (m : Machine) (c : Nat) : Nat := (m.mutexes.get (.cell c)).claim t

/-- The thread has the claims that it relies on. -/
def Secured (t : ThreadId) (m : Machine) : Prop :=
  Backed (m.stackOf t) (m.replyOf t) (m.cellClaims t)

theorem cellClaims_of_set {y : Mutex} (h : m'.mutexes = m.mutexes.set (.cell c) y) :
    m'.cellClaims t = update (m.cellClaims t) c (y.claim t) := by
  funext d
  rw [cellClaims, h, Store.get_set, update]
  by_cases hd : d = c
  · simp [hd]
  · simp [hd, cellClaims]

theorem cellClaims_acquire (ho : (m.mutexes.get (.cell c)).owner ≠ some me) :
    (m.acquire me (.cell c)).cellClaims me =
      update (m.cellClaims me) c (m.cellClaims me c + 1) := by
  rw [cellClaims_of_set (mutexes_acquire me (.cell c) m),
    Mutex.claim_request (Mutex.request_refused_iff.not.mpr ho)]
  rfl

theorem cellClaims_relock (ho : (m.mutexes.get (.cell c)).owner = some me) :
    (m.acquire me (.cell c)).cellClaims me = m.cellClaims me := by
  rw [cellClaims_of_set (mutexes_acquire me (.cell c) m),
    Mutex.request_of_refused (Mutex.request_refused_iff.mpr ho)]
  exact Function.update_eq_self c (m.cellClaims me)

theorem cellClaims_tryAcquire : (m.tryAcquire me (.cell c)).cellClaims me =
    if ((m.mutexes.get (.cell c)).tryTake me).1 then
      update (m.cellClaims me) c (m.cellClaims me c + 1) else m.cellClaims me := by
  have hset : (m.tryAcquire me (.cell c)).mutexes =
      m.mutexes.set (.cell c) ((m.mutexes.get (.cell c)).tryTake me).2 := rfl
  rw [cellClaims_of_set hset]
  split
  · rename_i htaken
    rw [Mutex.claim_tryTake htaken]
    rfl
  · rename_i htaken
    rw [Mutex.tryTake_of_false (by simpa using htaken)]
    exact Function.update_eq_self c (m.cellClaims me)

theorem cellClaims_release (hm : (m.mutexes.get (.cell c)).Regular)
    (ho : (m.mutexes.get (.cell c)).owner = some me) :
    (m.release me (.cell c)).cellClaims me =
      update (m.cellClaims me) c (m.cellClaims me c - 1) := by
  have hmutexes := mutexes_release me (.cell c) m
  rw [if_pos ho] at hmutexes
  rw [cellClaims_of_set hmutexes, cellClaims, hm.claim_handOver ho, Nat.add_sub_cancel]

/-- The owner of a cell gives its only claim up. -/
theorem cellClaims_release_self (hm : (m.mutexes.get (.cell c)).Regular)
    (ho : (m.mutexes.get (.cell c)).owner = some me) :
    (m.release me (.cell c)).cellClaims me c = 0 := by
  rw [cellClaims_release hm ho, Function.update_self]
  exact Nat.sub_eq_zero_of_le (hm.claim_le_one me)

/-- A thread that has a claim and is not queued owns the cell. -/
theorem owner_of_cellClaims (hpos : 0 < m.cellClaims me c)
    (hq : me ∉ (m.mutexes.get (.cell c)).waiting) :
    (m.mutexes.get (.cell c)).owner = some me := by
  by_contra ho
  exact Nat.ne_of_gt hpos (Mutex.claim_eq_zero_iff.mpr ⟨ho, hq⟩)

/-- A task that avoids cells leaves the claims alone. -/
theorem cellClaims_perform (hx : x.avoidsCells = true) (t : ThreadId) :
    (m.perform me x).cellClaims t = m.cellClaims t := by
  funext c
  rw [cellClaims, cellClaims]
  rcases mutex_perform me x m (.cell c) with ⟨rfl, -⟩ | ⟨rfl, -⟩ | ⟨rfl, -⟩ | he
  · cases hx
  · cases hx
  · cases hx
  · rw [he]

/-! ## What a task leaves on the stack -/

/-- Tasks that avoid cells are put on the stack, or the thread panics. -/
inductive Lays (me : ThreadId) (m m' : Machine) : Prop where
  | laid (new : List Task) : (∀ y ∈ new, y.avoidsCells = true) →
      m'.stackOf me = new ++ m.stackOf me → Lays me m m'
  | panicked (text : String) :
      m'.stackOf me = (m.stackOf me).filter Task.isCleanup ++ [.abort text] → Lays me m m'

theorem Lays.same (h : m'.stackOf me = m.stackOf me) : Lays me m m' :=
  .laid [] (List.forall_mem_nil _) h

theorem Lays.of_all (new : List Task) (hnew : new.all Task.avoidsCells = true)
    (h : m'.stackOf me = new ++ m.stackOf me) : Lays me m m' :=
  .laid new (List.all_eq_true.mp hnew) h

theorem Lays.covered (h : Lays me m m') (hts : Covered (m.stackOf me) n) :
    Covered (m'.stackOf me) n := by
  cases h with
  | laid new hnew hstack =>
      rw [hstack]
      exact hts.append hnew
  | panicked text hstack =>
      rw [hstack]
      exact hts.panic text

theorem lays_sections (hx : x.opens? = some l) : Lays me m (m.perform me x) := by
  have hcloses := closes_perform hx me m
  generalize hstack : (m.perform me x).stackOf me = us at hcloses
  cases hcloses with
  | closes => exact .of_all [_] rfl hstack
  | again side => exact .of_all [_, _, _] (by cases side <;> rfl) hstack
  | sleeps side => exact .of_all [_, _] (by cases side <;> rfl) hstack

theorem lays_acquire (hx : (Task.acquire name).avoidsCells = true) :
    Lays me m (m.acquire me name) := by
  rcases acquire_cases me name m with ⟨-, -, text, hstack⟩ | ⟨-, -, hstack⟩ | ⟨-, -, -, hstack⟩
  · exact .panicked text hstack
  · exact .same hstack
  · refine .of_all [.suspend, .awaitOwner name] ?_ hstack
    cases name <;> first | rfl | cases hx

theorem lays_awaitOwner (hx : (Task.awaitOwner name).avoidsCells = true) :
    Lays me m (m.awaitOwner me name) := by
  rcases awaitOwner_cases me name m with ⟨-, he⟩ | ⟨-, hstack⟩
  · exact .same (by rw [he])
  · refine .of_all [.suspend, .awaitOwner name] ?_ hstack
    cases name <;> first | rfl | cases hx

theorem lays_sleepUntil {k : RendezName} {v : Nat} {y : Int} {count : Nat}
    (hx : (Task.sleepUntil k name v y count).avoidsCells = true) :
    Lays me m (m.sleepUntil me k name v y count) := by
  unfold sleepUntil
  split
  · exact .same (stackOf_answer ..)
  · refine .of_all _ ?_ (stackOf_push ..)
    cases m.host <;> cases name <;> first | rfl | cases hx

theorem lays_closeSection (l : LockName) : Lays me m (m.closeSection me l) := by
  unfold closeSection
  split
  · exact .of_all [.release (.inner l)] rfl (stackOf_push ..)
  · exact .panicked _ (stackOf_panic ..)

theorem lays_enter {label : String} {g : Guard} {body : List Instr}
    (hx : (Task.enter label g body).avoidsCells = true) :
    Lays me m (m.enter me label g body) := by
  unfold enter
  split
  · exact .same (stackOf_report ..)
  · refine .laid _ (List.forall_mem_append.mpr ⟨avoidsCells_code body, ?_⟩)
      ((stackOf_push ..).trans (by rw [stackOf_report, stackOf_answer]))
    cases g with
    | cell => cases hx
    | shared | exclusive => exact List.all_eq_true.mp rfl

theorem lays_drop {g : Guard} (hx : (Task.drop g).avoidsCells = true) :
    Lays me m (m.drop me g) := by
  refine .of_all _ ?_ (stackOf_push ..)
  cases g with
  | cell => cases hx
  | shared | exclusive => rfl

theorem lays_showLock (l : LockName) : Lays me m (m.showLock me l) := by
  unfold showLock
  split
  · exact .same (stackOf_answer ..)
  · exact .of_all _ rfl (stackOf_push ..)

theorem lays_end (hx : x.isEnd = true) : Lays me m (m.perform me x) := by
  have hstack := stackOf_end me m hx
  split at hstack
  · exact .of_all [.drain] rfl hstack
  · exact .same hstack

/-- What a task that avoids cells leaves on the stack avoids them too. -/
theorem lays_perform (hx : x.avoidsCells = true) (hleads : x.leadsToCells = false)
    (hne : ∀ code, x = .spawn code → me ≠ m.sched.ids.next) : Lays me m (m.perform me x) := by
  cases hlocal : x.isLocal with
  | true =>
      cases local_perform hlocal hne with
      | extended he =>
          obtain ⟨new, hnew, hstack⟩ := he.stack
          exact .laid new (fun y hy => Task.avoidsCells_of_isLocal (hnew y hy)) hstack
      | panicked text _ hstack => exact .panicked text hstack
  | false =>
      cases x with
      | instr | condSleep | condSleepWhile => cases hleads
      | acquire name => exact lays_acquire hx
      | awaitOwner name => exact lays_awaitOwner hx
      | tryAcquire name => exact .same (stackOf_answer me _ (m.setMutex name _))
      | release name => exact .same (stackOf_release name)
      | sleepOn k name =>
          refine .of_all _ ?_ (stackOf_push me _ (m.setRendez k _))
          cases name <;> first | rfl | cases hx
      | leave | broadcast => exact .same rfl
      | signal k =>
          refine .same ?_
          show (m.signal k).stackOf me = _
          unfold signal
          dsimp only
          split <;> rfl
      | sleepUntil k name v y count => exact lays_sleepUntil hx
      | closeSection l => exact lays_closeSection l
      | enter label g body => exact lays_enter hx
      | drop g => exact lays_drop hx
      | checkDrop exclusive =>
          refine .same ?_
          show (m.checkDrop me exclusive).stackOf me = _
          unfold checkDrop
          split <;> rfl
      | showCell => cases hx
      | showLock l => exact lays_showLock l
      | exit | abort => exact lays_end rfl
      | drain =>
          have hstack := stackOf_drain me m
          split at hstack
          · exact .of_all [.suspend, .drain] rfl hstack
          · exact .same hstack
      | requestRead | recheckRead | requestWrite | recheckWrite | tryRead | tryWrite
      | releaseRead | releaseWrite | releaseHeld | copyState => exact lays_sections rfl
      | _ => cases hlocal

/-! ## The tasks of the thread itself -/

/-- Outside all calls for cells the thread stays there when it carries out a task that leads to
none. -/
theorem Covered.secured (hlays : Lays me m m') (hclaims : m'.cellClaims me = m.cellClaims me)
    (h : Covered (m.stackOf me) (m.cellClaims me)) : m'.Secured me := by
  unfold Secured
  rw [hclaims]
  exact (hlays.covered h).backed _

theorem secured_answer (h : Backed (m.stackOf me) r (m.cellClaims me)) :
    (m.answer me r).Secured me := by
  unfold Secured
  rw [stackOf_answer, replyOf_answer]
  exact h

theorem secured_push (h : Backed (us ++ m.stackOf me) (m.replyOf me) (m.cellClaims me)) :
    (m.push me us).Secured me := by
  unfold Secured
  rw [stackOf_push, replyOf_push]
  exact h

/-- A sleep on a condition gives up the cell of the innermost guard, or is refused. -/
theorem secured_condSleepWith {k : Nat} (h : Covered (m.stackOf me) (m.cellClaims me))
    (hus : ∀ y ∈ us, y.avoidsCells = true) (hone : m.cellClaims me c = 1) :
    (m.condSleepWith me k c us).Secured me := by
  unfold condSleepWith
  split
  · refine secured_push (m := m.answer me .null) ?_
    rw [stackOf_answer]
    exact ⟨hone, (h.append hus).backed _⟩
  · exact secured_answer (m := m.note .wrongGuard) (h.backed _)

theorem Covered.claim_of_guard? (h : Covered (m.stackOf me) (m.cellClaims me))
    (hm : ∀ name, (m.mutexes.get name).Regular) (hguard : m.guard? me = some (.cell c)) :
    m.cellClaims me c = 1 :=
  Nat.le_antisymm ((hm (.cell c)).claim_le_one me) (h.pos_of_findSome? hguard)

theorem secured_condSleep {k : Nat} (h : Covered (m.stackOf me) (m.cellClaims me))
    (hm : ∀ name, (m.mutexes.get name).Regular) : (m.condSleep me k).Secured me := by
  unfold condSleep
  split
  · exact secured_condSleepWith h (List.forall_mem_nil _) (h.claim_of_guard? hm ‹_›)
  · exact secured_answer (h.backed _)

theorem secured_condSleepWhile {k : Nat} {test : Test}
    (h : Covered (m.stackOf me) (m.cellClaims me)) (hm : ∀ name, (m.mutexes.get name).Regular) :
    (m.condSleepWhile me k test).Secured me := by
  unfold condSleepWhile
  split
  · rename_i c hguard
    have hone := h.claim_of_guard? hm hguard
    split
    · rename_i text _
      unfold Secured
      rw [stackOf_panic]
      exact (h.panic text).backed _
    · rename_i memory _
      dsimp only
      split
      · exact secured_condSleepWith (m := { m with memory }) h (List.all_eq_true.mp rfl) hone
      · exact secured_answer (m := { m with memory }) (h.backed _)
  · exact secured_answer (h.backed _)

theorem secured_acquire
    (h : Backed (.acquire (.cell c) :: m.stackOf me) (m.replyOf me) (m.cellClaims me)) :
    (m.acquire me (.cell c)).Secured me := by
  unfold Secured
  rw [replyOf_acquire]
  rcases acquire_cases me (.cell c) m with ⟨ho, -, text, hstack⟩ | ⟨ho, -, hstack⟩ |
    ⟨ho, -, -, hstack⟩ <;> rw [hstack]
  · have hpos : 0 < m.cellClaims me c := by
      by_contra hzero
      exact (Mutex.claim_eq_zero_iff.mp (Nat.eq_zero_of_not_pos hzero)).1 ho
    rw [cellClaims_relock ho]
    exact (h.1 hpos text).backed _
  · rw [cellClaims_acquire (by rw [ho]; simp)]
    exact h.2
  · rw [cellClaims_acquire ho]
    exact h.2

theorem secured_awaitOwner (h : Backed (m.stackOf me) (m.replyOf me) (m.cellClaims me)) :
    (m.awaitOwner me (.cell c)).Secured me := by
  unfold awaitOwner
  split
  · exact h
  · exact secured_push h

theorem secured_tryAcquire
    (h : Backed (.tryAcquire (.cell c) :: m.stackOf me) (m.replyOf me) (m.cellClaims me)) :
    (m.tryAcquire me (.cell c)).Secured me := by
  have hreply : (m.tryAcquire me (.cell c)).replyOf me =
      .bool ((m.mutexes.get (.cell c)).tryTake me).1 := replyOf_answer ..
  have hstack : (m.tryAcquire me (.cell c)).stackOf me = m.stackOf me := stackOf_answer ..
  unfold Secured
  rw [hreply, hstack, cellClaims_tryAcquire]
  cases ((m.mutexes.get (.cell c)).tryTake me).1 with
  | true => exact h.1
  | false => exact h.2

theorem secured_release
    (h : Backed (.release (.cell c) :: m.stackOf me) (m.replyOf me) (m.cellClaims me))
    (hm : (m.mutexes.get (.cell c)).Regular) (hq : me ∉ (m.mutexes.get (.cell c)).waiting) :
    (m.release me (.cell c)).Secured me := by
  unfold Secured
  rw [stackOf_release, replyOf_release, cellClaims_release hm (owner_of_cellClaims h.1 hq)]
  exact h.2

theorem secured_enter {label : String} {body : List Instr}
    (h : Covered (if (m.replyOf me).isRefusal then m.stackOf me
      else .drop (.cell c) :: m.stackOf me) (m.cellClaims me)) :
    (m.enter me label (.cell c) body).Secured me := by
  unfold enter
  split
  · rename_i hr
    rw [if_pos hr] at h
    unfold Secured
    rw [stackOf_report]
    exact h.backed _
  · rename_i hr
    rw [if_neg hr] at h
    refine secured_push (m := (m.answer me (.bool true)).report me label) ?_
    rw [stackOf_report, stackOf_answer, List.append_assoc]
    refine Covered.backed (.append (avoidsCells_code body) ?_) _
    cases h with
    | aside hx => cases hx
    | drop hpos hts => exact .drop hpos (.aside rfl (.aside rfl hts))

theorem Covered.backed_release (h : Covered (.drop (.cell c) :: ts) n) (r : Reply) :
    Backed (.release (.cell c) :: ts) r n := by
  cases h with
  | aside hx => cases hx
  | drop hpos hts => exact ⟨hpos, hts.backed r⟩

theorem secured_showCell
    (h : Covered (if (m.replyOf me).isRefusal then m.stackOf me
      else .drop (.cell c) :: m.stackOf me) (m.cellClaims me)) :
    (m.showCell me c).Secured me := by
  unfold showCell
  split
  · rename_i hr
    rw [if_pos hr] at h
    exact secured_answer (h.backed _)
  · rename_i hr
    rw [if_neg hr] at h
    refine secured_push (m := m.answer me _) ?_
    rw [stackOf_answer]
    exact h.backed_release _

/-- Every task of a thread leaves it with the claims that it relies on, whatever its code is. -/
theorem secured_perform (hq : m.MutexQueues) (hs : m.Sound) (hstack : m.stackOf me = x :: ts)
    (hne : ∀ code, x = .spawn code → me ≠ m.sched.ids.next) (h : m.Secured me) :
    ((m.setStack me ts).perform me x).Secured me := by
  have hts : (m.setStack me ts).stackOf me = ts := stackOf_onThread ..
  have hregular : ∀ name, ((m.setStack me ts).mutexes.get name).Regular := hq.regular
  have hwait : x ≠ .suspend → ∀ name, x ≠ .awaitOwner name →
      me ∉ ((m.setStack me ts).mutexes.get name).waiting := fun hsuspend name hx =>
    hq.not_waiting hs hstack hx hsuspend
  have h : Backed (x :: (m.setStack me ts).stackOf me) ((m.setStack me ts).replyOf me)
      ((m.setStack me ts).cellClaims me) := by
    rw [hts, replyOf_setStack, ← hstack]
    exact h
  have haside : x.avoidsCells = true → x.leadsToCells = false → x.isPassed = false →
      ((m.setStack me ts).perform me x).Secured me := fun hx hleads hpass =>
    (h.covered hx hpass).secured (lays_perform hx hleads hne) (cellClaims_perform hx me)
  cases x with
  | instr i =>
      exact secured_push ((h.covered rfl rfl).backed_tasks i _ _ _ _ _)
  | condSleep k => exact secured_condSleep (h.covered rfl rfl) hregular
  | condSleepWhile k test =>
      exact secured_condSleepWhile (h.covered rfl rfl) hregular
  | answer r => exact secured_answer h
  | suspend | leave => exact h
  | acquire name =>
      cases name with
      | cell c => exact secured_acquire h
      | raw | inner => exact haside rfl rfl rfl
  | awaitOwner name =>
      cases name with
      | cell c => exact secured_awaitOwner h
      | raw | inner => exact haside rfl rfl rfl
  | tryAcquire name =>
      cases name with
      | cell c => exact secured_tryAcquire h
      | raw | inner => exact haside rfl rfl rfl
  | release name =>
      cases name with
      | cell c => exact secured_release h (hregular _) (hwait nofun _ nofun)
      | raw | inner => exact haside rfl rfl rfl
  | sleepOn k name =>
      cases name with
      | cell c =>
          exact secured_push (m := (m.setStack me ts).setRendez k _) (backed_sleep k h.1 h.2)
      | raw | inner => exact haside rfl rfl rfl
  | sleepUntil k name =>
      cases name with
      | cell c =>
          cases (h : Covered (_ :: _) _) with
          | aside hx => cases hx
      | raw | inner => exact haside rfl rfl rfl
  | enter label g body =>
      cases g with
      | cell c => exact secured_enter h
      | shared | exclusive => exact haside rfl rfl rfl
  | drop g =>
      cases g with
      | cell c => exact secured_push (h.backed_release _)
      | shared | exclusive => exact haside rfl rfl rfl
  | showCell c => exact secured_showCell h
  | _ => exact haside rfl rfl rfl

/-! ## Runs -/

/-- What another thread does leaves a live thread its claims, and a new one relies on none. -/
theorem secured_other (hr : Reaches p.machine m) (hids : m.sched.ids.handed ≤ UInt64.size)
    (hturn : m.sched.turn = .held me) (hstack : m.stackOf me = x :: ts)
    (hids' : ((m.setStack me ts).perform me x).sched.ids.handed ≤ UInt64.size) (hne : t ≠ me)
    (h : m.sched.isLive t = true → m.Secured t)
    (hlive : ((m.setStack me ts).perform me x).sched.isLive t = true) :
    ((m.setStack me ts).perform me x).Secured t := by
  have hs := hr.sound hids
  cases hwas : m.sched.isLive t with
  | true =>
      have hown := (hs.spares hturn hstack hids').own t hne hwas
      have hclaims : ((m.setStack me ts).perform me x).cellClaims t = m.cellClaims t :=
        funext fun c => stake_other (hr.lockQueues hids) hs hstack hne (.mutex (.cell c))
      unfold Secured
      rw [stackOf, replyOf, hown, hclaims]
      exact h hwas
  | false =>
      have hstarted := hr.started_of_isLive hids' (step_of_held hturn hstack) hwas hlive
      rw [happenings_of_held hturn hstack] at hstarted
      obtain ⟨⟨code, rfl⟩, hnext⟩ := started_mem_happeningsOf hstarted
      obtain rfl : t = m.sched.ids.next := hnext
      have hthread :
          ((m.setStack me ts).perform me (.spawn code)).threads.get m.sched.ids.next = _ :=
        thread_spawned (m := m.setStack me ts) code (Ne.symm hne)
      unfold Secured
      rw [stackOf, hthread]
      exact (covered_code _ _).backed _

/-- At every moment of a run each live thread has the claims that it relies on. -/
theorem Reaches.secured (h : Reaches p.machine m) (hids : m.sched.ids.handed ≤ UInt64.size) :
    ∀ t, m.sched.isLive t = true → m.Secured t := by
  obtain ⟨τ, hτ⟩ := h.observed fun _ => ([] : List Unit)
  refine hτ.keeps (P := fun _ m => ∀ t, m.sched.isLive t = true → m.Secured t) hids ?_ ?_ ?_
    (fun _ m s hm _ hquiet t hlive => hm t ((hquiet.isLive t).symm.trans hlive))
    fun _ _ _ hm => hm
  · intro t _
    unfold Secured stackOf
    show Backed ((Store.empty.set _ _ : Store ThreadId Thread).get t).stack _ _
    rw [Store.get_set]
    split
    · exact (covered_code _ _).backed _
    · trivial
  · intro _ m me x ts hm hr hh hturn hstack hids' t hlive
    by_cases hne : t = me
    · subst hne
      have hs := hr.sound hh
      have hwas := Sched.isLive_of_isRunning (hs.coherent.isRunning_of_held hturn)
      exact secured_perform (hr.mutexQueues hh) hs hstack
        (by rintro code rfl; exact hs.ne_next code hturn hids') (hm t hwas)
    · exact secured_other hr hh hturn hstack hids' hne (hm t) hlive
  · intro _ m s hm hr hh hturn hs t hlive
    exact hm t ((hr.isLive_of_search hh hturn hs t).symm.trans hlive)

/-- The thread that has the turn has the claims that it relies on. -/
theorem Reaches.backed_of_held (h : Reaches p.machine m) (hids : m.sched.ids.handed ≤ UInt64.size)
    (hturn : m.sched.turn = .held me) (hstack : m.stackOf me = x :: ts) :
    Backed (x :: ts) (m.replyOf me) (m.cellClaims me) := by
  have hsecured := h.secured hids me
    (Sched.isLive_of_isRunning ((h.sound hids).coherent.isRunning_of_held hturn))
  rwa [Secured, hstack] at hsecured

/-- A thread that is outside all calls for cells owns the cell of its innermost guard. -/
theorem Reaches.owner_of_guard? (h : Reaches p.machine m)
    (hids : m.sched.ids.handed ≤ UInt64.size) (hturn : m.sched.turn = .held me)
    (hstack : m.stackOf me = x :: ts) (hx : x.leadsToCells = true)
    (hguard : m.guard? me = some (.cell c)) : (m.mutexes.get (.cell c)).owner = some me := by
  have hq : me ∉ (m.mutexes.get (.cell c)).waiting :=
    (h.mutexQueues hids).not_waiting (h.sound hids) hstack (by rintro rfl; cases hx)
      (by rintro rfl; cases hx)
  refine owner_of_cellClaims ?_ hq
  have hbacked := h.backed_of_held hids hturn hstack
  have hcovered : Covered (m.stackOf me) (m.cellClaims me) := by
    rw [hstack]
    cases x with
    | instr | condSleep | condSleepWhile => exact hbacked
    | _ => cases hx
  exact hcovered.pos_of_findSome? hguard

/-- A thread that releases a cell owns it. -/
theorem Reaches.owner_of_release (h : Reaches p.machine m)
    (hids : m.sched.ids.handed ≤ UInt64.size) (hturn : m.sched.turn = .held me)
    (hstack : m.stackOf me = .release (.cell c) :: ts) :
    (m.mutexes.get (.cell c)).owner = some me :=
  owner_of_cellClaims (h.backed_of_held hids hturn hstack).1
    ((h.mutexQueues hids).not_waiting (h.sound hids) hstack nofun nofun)

end Machine

end Baton
