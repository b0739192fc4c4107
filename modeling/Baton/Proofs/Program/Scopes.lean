import Baton.Proofs.Program.Stakes

/-!
# Machine: code that takes locks through blocks

Code is scoped if it takes mutexes and locks only through blocks, which release them at their end.
The stack of a thread with such code is what is left of the code, block by block, with the tasks of
the call that the thread is in above it. From the stack one reads off which stakes the thread has
and which guards are open, whatever the call is: the stakes of the guards, innermost first, and
above them those of the call.
-/

namespace Baton

mutual

/-- Whether the instruction takes mutexes and locks only through blocks. -/
def Instr.isScoped : Instr → Bool
  | .lock _ | .tryLock _ | .unlock _ | .sleep .. | .sleepUntil .. => false
  | .readLock _ | .writeLock _ | .tryReadLock _ | .tryWriteLock _ => false
  | .readUnlock _ | .writeUnlock _ | .releaseAny _ => false
  | .scope _ body => Instr.areScoped body
  | .loop _ body => Instr.areScoped body
  | .whilst _ body => Instr.areScoped body
  | _ => true

/-- Whether all instructions of the code take mutexes and locks only through blocks. -/
def Instr.areScoped : List Instr → Bool
  | [] => true
  | i :: is => i.isScoped && Instr.areScoped is

end

theorem Instr.areScoped_iff {is : List Instr} :
    Instr.areScoped is = true ↔ ∀ i ∈ is, i.isScoped = true := by
  induction is with
  | nil => simp [Instr.areScoped]
  | cons i is ih => simp [Instr.areScoped, ih]

/-- What the thread with a guard has a stake in. -/
def Guard.stake : Guard → Stake
  | cell i => .mutex (.cell i)
  | shared l => .hold .read l
  | exclusive l => .hold .write l

/-- Whether the task belongs to code outside all calls: it leaves the stakes of its thread alone, or
begins a call that returns them. -/
def Task.isCalm : Task → Bool
  | instr i => i.isScoped
  | condSleep _ | condSleepWhile .. | signal _ | broadcast _ => true
  | x => x.isLocal

theorem Task.isCalm_of_isLocal {x : Task} (h : x.isLocal = true) : x.isCalm = true := by
  cases x <;> first | exact h | cases h

theorem Task.isCleanup_eq_false_of_isCalm {x : Task} (h : x.isCalm = true) :
    x.isCleanup = false := by
  cases x <;> first | rfl | cases h

/-- The guard that its thread gives up when it releases a mutex and goes on with the tasks `ts`. A
thread that goes to sleep keeps the guard and takes the mutex again. -/
def MutexName.freed? (ts : List Task) (name : MutexName) : Option Guard :=
  match name, ts with
  | .cell _, .suspend :: .leave _ :: _ => none
  | .cell i, _ => some (.cell i)
  | _, _ => none

theorem MutexName.eq_cell_of_freed? {ts : List Task} {name : MutexName} {g : Guard}
    (h : name.freed? ts = some g) : ∃ i, name = .cell i ∧ g = .cell i := by
  unfold MutexName.freed? at h
  split at h
  · cases h
  · exact ⟨_, rfl, (Option.some.inj h).symm⟩
  · cases h

namespace Machine

variable {x : Task} {ts us : List Task} {r : Reply} {ks : List Stake} {g : Guard} {gs : List Guard}
  {name : MutexName} {l : LockName}

/-- What is left of a thread's code outside all calls, with the guards whose blocks are open, the
innermost first. -/
inductive Rest : List Task → List Guard → Prop where
  | exit : Rest [.exit] []
  | abort (text : String) : Rest [.abort text] []
  | calm {x : Task} {ts : List Task} {gs : List Guard} : x.isCalm = true → Rest ts gs →
      Rest (x :: ts) gs
  | drop {ts : List Task} {g : Guard} {gs : List Guard} : Rest ts gs →
      Rest (.drop g :: ts) (g :: gs)

/-- A thread outside all calls has the stakes of its open guards. -/
structure Outside (ts : List Task) (ks : List Stake) (gs : List Guard) : Prop where
  rest : Rest ts gs
  stakes : ks = gs.map Guard.stake

/-- A thread gets a guard unless its reply is a refusal, and is outside all calls then. -/
structure Obtains (g : Guard) (ts : List Task) (r : Reply) (ks : List Stake) (gs : List Guard) :
    Prop where
  rest : Rest ts gs
  stakes : ks = (if r.isRefusal then gs else g :: gs).map Guard.stake

/-- What a thread with scoped code relies on when it goes on with a stack and a reply: which stakes
it has, and which guards are open. -/
def Due : List Task → Reply → List Stake → List Guard → Prop
  | [], _, ks, gs => ks = [] ∧ gs = []
  | x :: ts, r, ks, gs => match x with
    | .answer r' => Due ts r' ks gs
    | .suspend | .leave _ | .awaitOwner _ => Due ts r ks gs
    -- A thread that has the mutex already panics, and only its guards are left to it.
    | .acquire name =>
      (.mutex name ∈ ks → ∀ text, Outside (ts.filter Task.isCleanup ++ [.abort text]) ks gs) ∧
        (.mutex name ∉ ks → Due ts r (.mutex name :: ks) gs)
    | .tryAcquire name => Due ts (.bool true) (.mutex name :: ks) gs ∧ Due ts (.bool false) ks gs
    | .release name => ∃ ks' gs', ks = .mutex name :: ks' ∧
        gs = (name.freed? ts).toList ++ gs' ∧ Due ts r ks' gs'
    | .sleepOn _ name => (∃ ks', ks = .mutex name :: ks' ∧ .mutex name ∉ ks') ∧ Due ts r ks gs
    | .requestRead l => ∃ ks', ks = .mutex (.inner l) :: ks' ∧
        Due ts .null (.hold .read l :: ks') gs ∧ Due ts (.fault .wouldDeadlock) ks' gs
    | .requestWrite l => ∃ ks', ks = .mutex (.inner l) :: ks' ∧
        Due ts .null (.hold .write l :: ks') gs ∧ Due ts (.fault .wouldDeadlock) ks' gs
    | .recheckRead l => ∃ ks', ks = .mutex (.inner l) :: .hold .read l :: ks' ∧
        Due ts r (.hold .read l :: ks') gs
    | .recheckWrite l => ∃ ks', ks = .mutex (.inner l) :: .hold .write l :: ks' ∧
        Due ts r (.hold .write l :: ks') gs
    | .tryRead l => ∃ ks', ks = .mutex (.inner l) :: ks' ∧
        Due ts (.bool true) (.hold .read l :: ks') gs ∧ Due ts (.bool false) ks' gs
    | .tryWrite l => ∃ ks', ks = .mutex (.inner l) :: ks' ∧
        Due ts (.bool true) (.hold .write l :: ks') gs ∧ Due ts (.bool false) ks' gs
    | .releaseRead l => ∃ ks' gs', ks = .mutex (.inner l) :: .hold .read l :: ks' ∧
        gs = .shared l :: gs' ∧ Due ts .null ks' gs'
    | .releaseWrite l => ∃ ks' gs', ks = .mutex (.inner l) :: .hold .write l :: ks' ∧
        gs = .exclusive l :: gs' ∧ Due ts .null ks' gs'
    | .copyState l => ∃ ks', ks = .mutex (.inner l) :: ks' ∧ ∀ s, Due ts (.snapshot s) ks' gs
    | .closeSection l => ∃ ks', ks = .mutex (.inner l) :: ks' ∧ Due ts r ks' gs
    | .enter _ g body => Instr.areScoped body = true ∧ Obtains g ts r ks gs
    | .showCell c => Obtains (.cell c) ts r ks gs
    | .showLock l => Obtains (.shared l) ts r ks gs
    | .checkDrop _ => (∀ e, r ≠ .fault e) ∧ Due ts r ks gs
    | .drain => ts = [] ∧ ks = [] ∧ gs = []
    | x => Outside (x :: ts) ks gs

theorem due_request (side : RwSide) : Due (side.request l :: ts) r ks gs ↔
    ∃ ks', ks = .mutex (.inner l) :: ks' ∧ Due ts .null (.hold side l :: ks') gs ∧
      Due ts (.fault .wouldDeadlock) ks' gs := by
  cases side <;> exact Iff.rfl

theorem due_recheck (side : RwSide) : Due (side.recheck l :: ts) r ks gs ↔
    ∃ ks', ks = .mutex (.inner l) :: .hold side l :: ks' ∧ Due ts r (.hold side l :: ks') gs := by
  cases side <;> exact Iff.rfl

theorem due_attempt (side : RwSide) : Due (side.attempt l :: ts) r ks gs ↔
    ∃ ks', ks = .mutex (.inner l) :: ks' ∧ Due ts (.bool true) (.hold side l :: ks') gs ∧
      Due ts (.bool false) ks' gs := by
  cases side <;> exact Iff.rfl

theorem due_release (side : RwSide) : Due (side.release l :: ts) r ks gs ↔
    ∃ ks' gs', ks = .mutex (.inner l) :: .hold side l :: ks' ∧ gs = side.guard l :: gs' ∧
      Due ts .null ks' gs' := by
  cases side <;> exact Iff.rfl

/-- The thread has what a guard stands for. -/
def Has (t : ThreadId) (m : Machine) : Guard → Prop
  | .cell i => (m.mutexes.get (.cell i)).owner = some t
  | .shared l => t ∈ (m.locks.get l).readers
  | .exclusive l => (m.locks.get l).writer = some t

/-- A thread has what it has a stake in, unless it is queued for it. -/
theorem Owes.has {t : ThreadId} {m : Machine} (h : m.Owes t ks) (hmem : g.stake ∈ ks)
    (hm : ∀ i, g = .cell i → t ∉ (m.mutexes.get (.cell i)).waiting)
    (hq : ∀ (side : RwSide) l, g = side.guard l → ¬ (m.locks.get l).IsQueued t) : m.Has t g := by
  cases g with
  | cell i => exact h.owner hmem (hm i rfl)
  | shared l =>
      have hpos : 0 < (m.locks.get l).holds t .read := h.holds_pos hmem (hq .read l rfl)
      exact List.count_pos_iff.mp hpos
  | exclusive l =>
      have hpos : 0 < (m.locks.get l).holds t .write := h.holds_pos hmem (hq .write l rfl)
      rw [RwState.holds_write] at hpos
      by_contra hw
      exact absurd hpos (by simpa [Has] using hw)

/-! ## Outside all calls -/

theorem Rest.append (hus : ∀ y ∈ us, y.isCalm = true) (h : Rest ts gs) : Rest (us ++ ts) gs := by
  induction us with
  | nil => exact h
  | cons y us ih =>
      exact .calm (hus y List.mem_cons_self) (ih fun z hz => hus z (List.mem_cons_of_mem y hz))

theorem Rest.of_calm (h : Rest (x :: ts) gs) (hx : x.isCalm = true) : Rest ts gs := by
  cases h with
  | calm _ hts => exact hts
  | exit | abort | drop => cases hx

/-- After a panic only the open guards are left, and the end. -/
theorem Rest.panic (h : Rest ts gs) (text : String) :
    Rest (ts.filter Task.isCleanup ++ [.abort text]) gs := by
  induction h with
  | exit => exact .abort text
  | abort => exact .abort text
  | calm hx _ ih => rwa [List.filter_cons_of_neg (by simp [Task.isCleanup_eq_false_of_isCalm hx])]
  | drop _ ih => exact .drop ih

/-- Outside all calls a thread goes on with any reply. -/
theorem Rest.due (h : Rest ts gs) (r : Reply) : Due ts r (gs.map Guard.stake) gs := by
  induction h generalizing r with
  | exit => exact ⟨.exit, rfl⟩
  | abort text => exact ⟨.abort text, rfl⟩
  | @calm x ts gs hx hts ih =>
      cases x with
      | answer r' => exact ih r'
      | suspend => exact ih r
      | _ => first | exact ⟨.calm hx hts, rfl⟩ | cases hx
  | drop hts => exact ⟨.drop hts, rfl⟩

theorem Outside.due (h : Outside ts ks gs) (r : Reply) : Due ts r ks gs :=
  h.stakes ▸ h.rest.due r

/-- A thread ends, and waits for the others, when no guard is open. -/
theorem Due.eq_nil (h : Due (x :: ts) r ks gs) (hx : x.isEnd = true ∨ x = .drain) :
    ts = [] ∧ ks = [] ∧ gs = [] := by
  rcases hx with hx | rfl
  · cases x with
    | exit =>
        obtain ⟨hrest, rfl⟩ : Outside (.exit :: ts) ks gs := h
        cases hrest with
        | exit => exact ⟨rfl, rfl, rfl⟩
        | calm hx => cases hx
    | abort text =>
        obtain ⟨hrest, rfl⟩ : Outside (.abort text :: ts) ks gs := h
        cases hrest with
        | abort => exact ⟨rfl, rfl, rfl⟩
        | calm hx => cases hx
    | _ => cases hx
  · exact h

/-- The innermost guard is the one that the body of a block works with. -/
theorem Rest.findSome? (h : Rest ts gs) : ts.findSome? (fun
    | .drop g => some g
    | _ => none) = gs.head? := by
  induction h with
  | exit => rfl
  | abort => rfl
  | @calm x ts gs hx _ ih =>
      rw [List.findSome?_cons]
      cases x <;> first | exact ih | cases hx
  | drop => rfl

/-- A release by a thread outside all calls gives the guard of the cell up. -/
theorem Rest.freed? (h : Rest ts gs) (i : Nat) : (MutexName.cell i).freed? ts = some (.cell i) := by
  cases h with
  | @calm x us _ _ hus =>
      cases x with
      | suspend =>
          -- No sleep goes on after the suspension: its tasks are not calm.
          cases hus with
          | @calm y _ _ hy => cases y <;> first | rfl | cases hy
          | _ => rfl
      | _ => rfl
  | _ => rfl

/-! ## Calls -/

theorem inner_notMem (l : LockName) (gs : List Guard) :
    .mutex (.inner l) ∉ gs.map Guard.stake := by
  rw [List.mem_map]
  rintro ⟨g, -, hg⟩
  cases g <;> cases hg

/-- A thread that does not have the mutex goes on with it. -/
theorem due_acquire (hks : .mutex name ∉ ks) (h : Due ts r (.mutex name :: ks) gs) :
    Due (.acquire name :: ts) r ks gs :=
  ⟨fun hmem => absurd hmem hks, fun _ => h⟩

/-- A guard is obtained, or it is not and the reply says so. -/
theorem due_opening (o : Opening) (r : Reply)
    (h : ∀ r, Due ts r ((if r.isRefusal then gs else o.guard :: gs).map Guard.stake) gs)
    (hpanic : ∀ text, Rest (ts.filter Task.isCleanup ++ [.abort text]) gs) :
    Due (o.tasks ++ ts) r (gs.map Guard.stake) gs := by
  cases o with
  | cell i => exact ⟨fun _ text => ⟨hpanic text, rfl⟩, fun _ => h .null⟩
  | tryCell i => exact ⟨h (.bool true), h (.bool false)⟩
  | read l =>
      exact due_acquire (inner_notMem l gs) ⟨_, rfl, h .null, h (.fault .wouldDeadlock)⟩
  | write l =>
      exact due_acquire (inner_notMem l gs) ⟨_, rfl, h .null, h (.fault .wouldDeadlock)⟩
  | tryRead l => exact due_acquire (inner_notMem l gs) ⟨_, rfl, h (.bool true), h (.bool false)⟩
  | tryWrite l => exact due_acquire (inner_notMem l gs) ⟨_, rfl, h (.bool true), h (.bool false)⟩

/-- The tasks that release a guard. -/
theorem due_drop (g : Guard) (r : Reply) (h : Rest ts gs) : Due ((match g with
    | .cell i => [.release (.cell i)]
    | .shared l => Task.section l (.releaseRead l) ++ [.checkDrop false]
    | .exclusive l => Task.section l (.releaseWrite l) ++ [.checkDrop true]) ++ ts) r
      ((g :: gs).map Guard.stake) (g :: gs) := by
  cases g with
  | cell i =>
      refine ⟨_, gs, rfl, ?_, h.due r⟩
      rw [show [].append ts = ts from rfl, h.freed? i]
      rfl
  | shared l =>
      exact due_acquire (inner_notMem l _) ⟨_, gs, rfl, rfl, by simp, h.due .null⟩
  | exclusive l =>
      exact due_acquire (inner_notMem l _) ⟨_, gs, rfl, rfl, by simp, h.due .null⟩

/-- A sleep gives the mutex up and takes it again. -/
theorem due_sleep {k : RendezName} (hks : .mutex name ∉ ks)
    (h : Due ts r (.mutex name :: ks) gs) :
    Due (.release name :: .suspend :: .leave k :: .acquire name :: ts) r (.mutex name :: ks) gs :=
  ⟨ks, gs, rfl, by cases name <;> rfl, due_acquire hks h⟩

/-! ## Instructions -/

theorem isCalm_code {is : List Instr} (h : Instr.areScoped is = true) :
    ∀ y ∈ is.map Task.instr, y.isCalm = true := by
  intro y hy
  obtain ⟨i, hi, rfl⟩ := List.mem_map.mp hy
  exact Instr.areScoped_iff.mp h i hi

/-- A thread that starts with scoped code has no guards. -/
theorem rest_code {is : List Instr} (h : Instr.areScoped is = true) :
    Rest (is.map Task.instr ++ [.exit]) [] :=
  Rest.append (isCalm_code h) .exit

/-- Blocks and diagnostics obtain a guard, copies of a lock are taken in a section, and all other
instructions stand for calm tasks. -/
theorem Rest.due_tasks {i : Instr} (h : Rest ts gs) (hi : i.isScoped = true) (host : Host)
    (me : ThreadId) (r : Reply) (memory : Memory) (r' : Reply) :
    Due (i.tasks host me r memory ++ ts) r' (gs.map Guard.stake) gs := by
  have hcalm : ∀ {us : List Task}, us.all Task.isCalm = true →
      Due (us ++ ts) r' (gs.map Guard.stake) gs := fun hus =>
    (Rest.append (List.all_eq_true.mp hus) h).due r'
  cases i with
  | lock | tryLock | unlock | sleep | sleepUntil => cases hi
  | readLock | writeLock | tryReadLock | tryWriteLock => cases hi
  | readUnlock | writeUnlock | releaseAny => cases hi
  | scope o body =>
      have hopen : Due (o.tasks ++ ([.enter o.name o.guard body] ++ ts)) r' (gs.map Guard.stake)
          gs :=
        due_opening o r' (fun _ => ⟨hi, h, rfl⟩) h.panic
      rw [← List.append_assoc] at hopen
      cases host with
      | outside => exact hcalm rfl
      | coop => exact hopen
      | native => exact hopen
  | snapshot l =>
      have hcopy : Due (Task.section (.raw l) (.copyState (.raw l)) ++
          ([.report (Instr.snapshot l).name] ++ ts)) r' (gs.map Guard.stake) gs :=
        due_acquire (inner_notMem _ gs) ⟨_, rfl, fun _ => (Rest.calm rfl h).due _⟩
      cases host with
      | outside => exact hcalm rfl
      | coop => exact hcopy
      | native => exact hcopy
  | showCell c =>
      have hshow : Due ((Opening.tryCell c).tasks ++
          (.showCell c :: .report (Instr.showCell c).name :: ts)) r' (gs.map Guard.stake) gs :=
        due_opening _ r' (fun _ => ⟨.calm rfl h, rfl⟩) h.panic
      cases host with
      | outside => exact hcalm rfl
      | coop => exact hshow
      | native => exact hshow
  | showTable t =>
      have hshow : Due ((Opening.tryRead (.table t)).tasks ++
          (.showLock (.table t) :: .report (Instr.showTable t).name :: ts)) r'
          (gs.map Guard.stake) gs :=
        due_opening _ r' (fun _ => ⟨.calm rfl h, rfl⟩) h.panic
      cases host with
      | outside => exact hcalm rfl
      | coop => exact hshow
      | native => exact hshow
  | loop n body =>
      cases n with
      | zero => exact h.due r'
      | succ n =>
          cases body with
          | nil => exact h.due r'
          | cons i body =>
              exact (Rest.append (List.forall_mem_append.mpr ⟨isCalm_code hi, by simpa⟩) h).due r'
  | whilst c body =>
      show Due ((if c r memory then body.map Task.instr ++ [.instr (.whilst c body)] else []) ++ ts)
        r' (gs.map Guard.stake) gs
      split
      · exact (Rest.append (List.forall_mem_append.mpr ⟨isCalm_code hi, by simpa⟩) h).due r'
      · exact h.due r'
  | _ => exact hcalm (by cases host <;> rfl)

end Machine

end Baton
