import Baton.Proofs.Program.Tasks
import Baton.Proofs.Sched.Rounds
import Baton.Program.Run

/-!
# Machine: what a machine comes to

`m.Attains Q` says that the machine `m` comes to one with `Q` if it is left alone, and that there is
always somebody to run on the way. The rules take the running thread's tasks one by one: what is to
be shown before a task is what is to be shown after it, of the machine as the task leaves it.

## Implementation notes

The rules speak of machines of the form `m.withThread me ⟨ts, r, n, e⟩`, where the running thread's
own part is given beside a machine `m` of which only the rest counts. Every task of the thread leads
to such a machine again.
-/

namespace Baton

namespace Store

variable {κ α : Type} [DecidableEq κ]

/-- Of two values for a key the later one stays. -/
theorem set_set (s : Store κ α) (k : κ) (v w : α) : (s.set k v).set k w = s.set k w := by
  simp [set, erase, List.filter_filter]

end Store

/-- Whether the search has found nobody to run. -/
def Turn.isIdle : Turn → Bool
  | .idle _ | .stuck _ => true
  | _ => false

namespace Machine

variable {P Q : Machine → Prop} {m m' k : Machine} {me : ThreadId}

/-- The machine comes to one with `Q`, and on the way there is always somebody to run. -/
inductive Attains (Q : Machine → Prop) : Machine → Prop where
  | here {m : Machine} (h : Q m) : Attains Q m
  | step {m m' : Machine} (hbusy : m.sched.turn.isIdle = false) (hstep : m.step = some m')
      (h : Attains Q m') : Attains Q m

theorem Attains.trans (h : m.Attains P) (hP : ∀ m', P m' → m'.Attains Q) : m.Attains Q := by
  induction h with
  | here h => exact hP _ h
  | step hbusy hstep _ ih => exact .step hbusy hstep ih

/-- What is attained is reached. -/
theorem Attains.reaches (h : m.Attains Q) (hm : Reaches k m) :
    m.Attains fun m' => Q m' ∧ Reaches k m' := by
  induction h with
  | here h => exact .here ⟨h, hm⟩
  | step hbusy hstep _ ih => exact .step hbusy hstep (ih (.step hm hstep))

/-- A machine that comes to an end with `Q` stays there. -/
theorem Attains.run (h : m.Attains Q)
    (hend : ∀ m', Q m' → m'.step = none ∧ m'.sched.turn.isIdle = false) :
    (∀ n, (m.run n).sched.turn.isIdle = false) ∧ ∃ n, ∀ i, n ≤ i → Q (m.run i) := by
  induction h with
  | @here m h =>
      obtain ⟨hstep, hbusy⟩ := hend m h
      have hstay : ∀ n, m.run n = m := by
        intro n
        cases n with
        | zero => rfl
        | succ n => rw [Machine.run, hstep]
      refine ⟨fun n => ?_, 0, fun i _ => ?_⟩
      · rw [hstay]
        exact hbusy
      · rw [hstay]
        exact h
  | @step m m' hbusy hstep _ ih =>
      obtain ⟨hall, n, hn⟩ := ih
      have hrun : ∀ i, m.run (i + 1) = m'.run i := fun i => by rw [Machine.run, hstep]
      refine ⟨fun i => ?_, n + 1, fun i hi => ?_⟩
      · cases i with
        | zero => exact hbusy
        | succ i =>
            rw [hrun]
            exact hall i
      · obtain ⟨i, rfl⟩ : ∃ j, i = j + 1 := ⟨i - 1, by omega⟩
        rw [hrun]
        exact hn i (by omega)

/-- A machine whose run is over makes no step. -/
theorem step_eq_none (hover : m.sched.turn = .over) : m.step = none := by
  rw [Machine.step, hover]
  simp [Sched.search, hover]

/-- A run that comes to rest without the panic of a giver needs no other steps. -/
theorem unfold_eq_run {n : Nat} (h : (m.run n).overflow = none) : m.unfold n = m.run n := by
  induction n generalizing m with
  | zero => rfl
  | succ n ih =>
      rw [Machine.unfold, Machine.run] at *
      cases hstep : m.step with
      | some next =>
          rw [hstep] at h
          exact ih h
      | none =>
          rw [hstep] at h
          rw [show m.overflow = none from h]
          rfl

/-- A run that is over is reported to have ended as the main thread did. -/
theorem ending_run {p : Program} {n : Nat} {o : Outcome}
    (hover : (p.final n).sched.turn = .over) (hmain : (p.final n).mainOutcome = some o) :
    (p.run n).ending = .ended o := by
  have hfinal : p.machine.unfold n = p.final n := by
    apply unfold_eq_run
    rw [overflow, Sched.overflow?, show (p.machine.run n).sched.turn = .over from hover]
  have hrun : p.run n = Program.report (p.final n) [] := by
    rw [Program.run, hfinal, if_neg]
    simp [isStuck, hover]
  rw [hrun, Program.report, hover, hmain]

/-! ## The running thread's own part -/

/-- The machine with another record of a thread's own part. -/
def withThread (me : ThreadId) (th : Thread) (m : Machine) : Machine :=
  { m with threads := m.threads.set me th }

variable {ts xs : List Task} {x : Task} {r r' : Reply} {n : Nat} {e : ErrorText} {th : Thread}

@[simp] theorem get_withThread (me t : ThreadId) (th : Thread) (m : Machine) :
    (m.withThread me th).threads.get t = if t = me then th else m.threads.get t :=
  Store.get_set ..

@[simp] theorem sched_withThread : (m.withThread me th).sched = m.sched := rfl

@[simp] theorem mutexes_withThread : (m.withThread me th).mutexes = m.mutexes := rfl

@[simp] theorem locks_withThread : (m.withThread me th).locks = m.locks := rfl

@[simp] theorem handles_withThread : (m.withThread me th).handles = m.handles := rfl

@[simp] theorem outcomes_withThread : (m.withThread me th).outcomes = m.outcomes := rfl

/-- A change of the thread's own part. -/
theorem update_withThread (f : Thread → Thread) :
    { m.withThread me th with threads := (m.withThread me th).threads.update me f } =
      m.withThread me (f th) := by
  rw [Store.update, get_withThread, if_pos rfl]
  exact congrArg (fun s => { m with threads := s }) (Store.set_set ..)

theorem push_withThread :
    (m.withThread me ⟨ts, r, n, e⟩).push me xs = m.withThread me ⟨xs ++ ts, r, n, e⟩ :=
  update_withThread _

theorem answer_withThread :
    (m.withThread me ⟨ts, r, n, e⟩).answer me r' = m.withThread me ⟨ts, r', n, e⟩ :=
  update_withThread _

@[simp] theorem replyOf_withThread : (m.withThread me ⟨ts, r, n, e⟩).replyOf me = r :=
  congrArg Thread.reply ((get_withThread ..).trans (if_pos rfl))

/-- The machine after a reply has been reported. -/
def reported (me : ThreadId) (name : String) (r : Reply) (m : Machine) : Machine :=
  { m with events := ⟨m.host.identity me, name, r⟩ :: m.events }

theorem report_withThread (name : String) :
    (m.withThread me ⟨ts, r, n, e⟩).report me name =
      (m.reported me name r).withThread me ⟨ts, r, n + 1, e⟩ := by
  rw [Machine.report, replyOf_withThread]
  exact update_withThread (m := m.reported me name r) fun t => { t with produced := t.produced + 1 }

/-! ## Single tasks -/

theorem step_withThread (hheld : m.sched.turn = .held me) :
    (m.withThread me ⟨x :: ts, r, n, e⟩).step =
      some ((m.withThread me ⟨ts, r, n, e⟩).perform me x) := by
  have hturn : (m.withThread me ⟨x :: ts, r, n, e⟩).sched.turn = .held me := hheld
  have hpop : (m.withThread me ⟨x :: ts, r, n, e⟩).popTask me =
      some (x, m.withThread me ⟨ts, r, n, e⟩) := by
    rw [popTask, get_withThread, if_pos rfl]
    exact congrArg (fun k => some (x, k)) (update_withThread _)
  rw [Machine.step, hturn]
  simp only [hpop, Option.map_some]

/-- The thread carries out its next task. -/
theorem attains_perform (hheld : m.sched.turn = .held me)
    (h : ((m.withThread me ⟨ts, r, n, e⟩).perform me x).Attains Q) :
    (m.withThread me ⟨x :: ts, r, n, e⟩).Attains Q := by
  apply Attains.step _ (step_withThread hheld) h
  show m.sched.turn.isIdle = false
  rw [hheld]
  rfl

/-- The thread carries out its next task, and it is known what comes of that. -/
theorem attains_performed (hheld : m.sched.turn = .held me)
    (hm' : (m.withThread me ⟨ts, r, n, e⟩).perform me x = m') (h : m'.Attains Q) :
    (m.withThread me ⟨x :: ts, r, n, e⟩).Attains Q := by
  apply attains_perform hheld
  rw [hm']
  exact h

/-- The running thread's own part may be looked at for itself. -/
theorem attains_of_thread (hheld : m.sched.turn = .held me) (hth : m.threads.get me = th)
    (hstack : th.stack ≠ []) (hQ : Q (m.withThread me th) → Q m)
    (h : (m.withThread me th).Attains Q) : m.Attains Q := by
  obtain ⟨ts, r, n, e⟩ := th
  obtain ⟨x, ts, rfl⟩ := List.exists_cons_of_ne_nil hstack
  have hstep : m.step = some ((m.withThread me ⟨ts, r, n, e⟩).perform me x) := by
    rw [Machine.step, hheld]
    simp only [popTask, hth, Option.map_some]
    rw [Machine.setStack, Store.update, hth]
    rfl
  cases h with
  | here h => exact .here (hQ h)
  | step hbusy hstep' h =>
      rw [step_withThread hheld] at hstep'
      exact .step hbusy (hstep.trans hstep') h

theorem attains_answer (hheld : m.sched.turn = .held me)
    (h : (m.withThread me ⟨ts, r', n, e⟩).Attains Q) :
    (m.withThread me ⟨.answer r' :: ts, r, n, e⟩).Attains Q :=
  attains_performed hheld answer_withThread h

theorem attains_report (name : String) (hheld : m.sched.turn = .held me)
    (h : ((m.reported me name r).withThread me ⟨ts, r, n + 1, e⟩).Attains Q) :
    (m.withThread me ⟨.report name :: ts, r, n, e⟩).Attains Q :=
  attains_performed hheld (report_withThread name) h

/-- An instruction is replaced by its tasks. -/
theorem attains_instr {i : Instr} (hheld : m.sched.turn = .held me) (hhost : m.host = .coop)
    (h : (m.withThread me ⟨i.tasks .coop me r m.memory ++ ts, r, n, e⟩).Attains Q) :
    (m.withThread me ⟨.instr i :: ts, r, n, e⟩).Attains Q := by
  have htasks : (m.withThread me ⟨ts, r, n, e⟩).perform me (.instr i) =
      m.withThread me ⟨i.tasks .coop me r m.memory ++ ts, r, n, e⟩ := by
    show (m.withThread me ⟨ts, r, n, e⟩).push me
      (i.tasks m.host me ((m.withThread me ⟨ts, r, n, e⟩).replyOf me) m.memory) = _
    rw [replyOf_withThread, hhost, push_withThread]
  exact attains_performed hheld htasks h

/-- An update changes the memory and nothing else. -/
theorem attains_update {f : Reply → Memory → Memory} (hheld : m.sched.turn = .held me)
    (hhost : m.host = .coop)
    (h : ({ m with memory := f r m.memory }.withThread me ⟨ts, r, n, e⟩).Attains Q) :
    (m.withThread me ⟨.instr (.update f) :: ts, r, n, e⟩).Attains Q := by
  apply attains_instr hheld hhost
  have hcompute : (m.withThread me ⟨ts, r, n, e⟩).perform me (.compute fun r m => (r, f r m)) =
      { m with memory := f r m.memory }.withThread me ⟨ts, r, n, e⟩ := by
    show ({ m with memory := f _ m.memory }.withThread me ⟨ts, r, n, e⟩).answer me _ = _
    rw [replyOf_withThread, answer_withThread]
  exact attains_performed hheld hcompute h

/-- A yield gives the turn away, and what is left is to report it. -/
theorem attains_yield (hheld : m.sched.turn = .held me) (hhost : m.host = .coop)
    (h : ((m.onSched (Sched.yieldNow me)).withThread me
      ⟨.answer .null :: .report "yield" :: ts, r, n, e⟩).Attains Q) :
    (m.withThread me ⟨.instr .yield :: ts, r, n, e⟩).Attains Q := by
  apply attains_instr hheld hhost
  exact attains_perform hheld h

/-- A suspension stops the thread, unless a wakeup is remembered. -/
theorem attains_suspend (hheld : m.sched.turn = .held me)
    (h : ((m.onSched (Sched.stop me)).withThread me ⟨ts, r, n, e⟩).Attains Q) :
    (m.withThread me ⟨.suspend :: ts, r, n, e⟩).Attains Q :=
  attains_perform hheld h

/-! ## The search -/

theorem step_of_search {s : Sched} (hfree : ∀ t, m.sched.turn ≠ .held t)
    (hs : m.sched.search m.system = some s) : m.step = some { m with sched := s } := by
  rw [Machine.step]
  split
  · exact absurd ‹_› (hfree _)
  · rw [hs]
    rfl

/-- While nobody waits for descriptors and somebody can run, the search ends with a thread that
runs. -/
theorem attains_held {giver : ThreadId} (hc : m.sched.Coherent)
    (hturn : m.sched.turn = .seeking giver) (hwaiters : m.sched.waiters = [])
    (hready : m.sched.ready ≠ [])
    (h : ∀ s t, s.turn = .held t → Sched.Mild (fun _ => True) m.sched s →
      (∀ u, s.alertness u = m.sched.alertness u) → Attains Q { m with sched := s }) :
    m.Attains Q := by
  have hpolled : m.sched.search m.system = some { m.sched with turn := .choosing giver } :=
    Sched.search_seeking hturn hwaiters
  apply Attains.step (by rw [hturn]; rfl) (step_of_search (by simp [hturn]) hpolled)
  have hchoosing : Sched.Coherent { m.sched with turn := .choosing giver } :=
    hc.withTurn (by simp [hturn, Turn.IsFree]) (by simp [Turn.IsFree]) (by simp)
  obtain ⟨s, hs, hs', hmild, halert, hnext⟩ := hchoosing.search_choosing (b := fun _ => True)
    (system m) rfl hready
  apply Attains.step rfl (step_of_search (by simp) hs)
  have hmild : Sched.Mild (fun _ => True) m.sched s := { hmild with }
  rcases hnext with hpassing | ⟨t, hheld⟩
  · obtain ⟨s', htake, t, hheld⟩ := hs'.exists_takeUp hpassing
    have hsearch : s.search m.system = some s' := by
      rw [Sched.search, hpassing]
      exact htake
    apply Attains.step (by rw [hpassing]; rfl) (step_of_search (by simp [hpassing]) hsearch)
    apply h s' t hheld (hmild.trans (Sched.mild_takeUp htake))
    intro u
    exact (Sched.alertness_takeUp htake u).trans (halert u)
  · exact h s t hheld hmild halert

end Machine

end Baton
