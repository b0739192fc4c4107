import Baton.Proofs.Io.Words
import Baton.Proofs.Program.Conserved

/-!
# Machine: what a wait for descriptors replies

A wait replies how many of its entries are ready, and what was found for each. It may end with the
first look that the thread takes itself, on either host, or with an outcome that a poll of the
scheduler has for it. Each time the reply is one poll of the call's own entries, as it is read off
the words of an honest system call.

If something is ready at the first look both hosts reply the same and the thread goes on, unless no
deadline can be formed: the native host forms it before it looks.
-/

namespace Baton

/-- Whether the task looks at the entries of a wait or for its outcome. -/
def Task.looks : Task → Bool
  | pollHere .. | selectHere .. | select .. | collect => true
  | _ => false

namespace Machine

variable {p : Program} {τ σ : List WaitEvent} {m m' : Machine} {me t : ThreadId} {x : Task}
  {ts : List Task} {entries : List (PollEntry Descriptor)} {timeout : Option Span}
  {k : Poller Descriptor} {n : Nat} {found : List Interest}

/-- The reply to a poll tells the count of the poll. -/
theorem selectedReply_poll (k : Poller Descriptor) (entries : List (PollEntry Descriptor)) :
    selectedReply (k.poll entries).2 =
      .selected (k.poll entries).1 ((k.poll entries).2.map PollEntry.revents) := by
  rw [selectedReply, Poller.countP_isReady_poll]

/-! ## Something is ready -/

/-- The deadline of a wait that begins now can be formed, if it has one. -/
def CanAwait (m : Machine) (timeout : Option Span) : Prop :=
  timeout.any (fun d => (m.sched.clock.after? d).isNone) = false

instance (m : Machine) (timeout : Option Span) : Decidable (m.CanAwait timeout) :=
  inferInstanceAs (Decidable (_ = _))

/-- The call that a thread has on top of its stack returns `r` in this step, and the thread goes on
running with the tasks `ts` below it. -/
structure Returns (me : ThreadId) (ts : List Task) (r : Reply) (m m' : Machine) : Prop where
  stack : m'.stackOf me = ts
  reply : m'.replyOf me = r
  turn : m'.sched.turn = .held me
  slots : m'.sched.slots = m.sched.slots
  ready : m'.sched.ready = m.sched.ready
  waiters : m'.sched.waiters = m.sched.waiters

/-- On the scheduler the first look comes before the timeout is made use of. -/
theorem selectEntries_of_done (me : ThreadId) (hsystem : m.system = .ok k)
    (hdone : 0 < (k.poll entries).1 ∨ timeout = some .zero) : m.selectEntries me entries timeout =
      (m.onSched (Sched.elapse Sched.pollCost)).answer me (selectedReply (k.poll entries).2) := by
  unfold selectEntries
  rw [hsystem, selectedReply_poll]
  exact if_pos (Bool.or_eq_true_iff.mpr (hdone.imp (decide_eq_true ·) (beq_iff_eq.mpr ·)))

/-- If it finds nothing the wait is registered, or the deadline cannot be formed. -/
theorem selectEntries_of_silent (me : ThreadId) (hsystem : m.system = .ok k)
    (hcount : (k.poll entries).1 = 0) (hzero : timeout ≠ some .zero) :
    let polled := m.onSched (Sched.elapse Sched.pollCost)
    (polled.CanAwait timeout → ∃ deadline, m.selectEntries me entries timeout =
      (polled.onSched (Sched.await ⟨me, entries, deadline⟩)).push me [.collect]) ∧
    (¬ polled.CanAwait timeout →
      m.selectEntries me entries timeout = polled.panic me Instant.overflowText) := by
  intro polled
  have hgoes : ¬ (decide (0 < (k.poll entries).1) || timeout == some .zero) = true := by
    simp [hcount, hzero]
  unfold selectEntries CanAwait
  rw [hsystem]
  cases timeout with
  | none => exact ⟨fun _ => ⟨none, if_neg hgoes⟩, fun hdeadline => absurd rfl hdeadline⟩
  | some d =>
      cases hafter : polled.sched.clock.after? d with
      | some deadline =>
          refine ⟨fun _ => ⟨some deadline, (if_neg hgoes).trans ?_⟩, fun hdeadline => ?_⟩
          · simp only [polled, hafter]
          · exact absurd (by simp [hafter]) hdeadline
      | none =>
          refine ⟨fun hdeadline => ?_, fun _ => (if_neg hgoes).trans ?_⟩
          · simp [hafter] at hdeadline
          · simp only [polled, hafter]

/-- On the native host the deadline comes first. -/
theorem pollHere_of_done (me : ThreadId) (hsystem : m.system = .ok k)
    (hdone : 0 < (k.poll entries).1 ∨ timeout.isSome = true) (hdeadline : m.CanAwait timeout) :
    m.pollHere me entries timeout = m.answer me (selectedReply (k.poll entries).2) := by
  have hpolled :
      m.system.pollTimed m.sched.clock timeout entries = some (.ok (k.poll entries)) := by
    rw [PollSystem.pollTimed, hsystem, hdeadline]
    rfl
  unfold pollHere
  rw [hpolled, selectedReply_poll]
  exact if_pos (Bool.or_eq_true_iff.mpr (hdone.imp_left (decide_eq_true ·)))

theorem pollHere_of_overflow (me : ThreadId) (entries : List (PollEntry Descriptor))
    (hdeadline : ¬ m.CanAwait timeout) :
    m.pollHere me entries timeout = m.panic me Instant.overflowText := by
  have hpolled : m.system.pollTimed m.sched.clock timeout entries = none :=
    if_pos ((Bool.not_eq_false _).mp hdeadline)
  unfold pollHere
  rw [hpolled]

/-- If any entry is ready at the call, both hosts reply with the same poll of the call's entries in
one step, and the thread keeps the turn. The scheduler does so for every timeout, and the native
host for every timeout whose deadline can be formed; with any other it panics. -/
theorem select_agrees_when_ready {named : List (Descriptor × Interest)}
    (hturn : m.sched.turn = .held me) (hstack : m.stackOf me = .select named timeout :: ts)
    (hsystem : m.system = .ok k) (hready : ∃ e ∈ m.resolve named, (k.found e).any = true) :
    let r := selectedReply (k.poll (m.resolve named)).2
    (∃ m', { m with host := .coop }.step = some m' ∧ Returns me ts r m m') ∧
    (m.CanAwait timeout →
      ∃ m', { m with host := .native }.step = some m' ∧ Returns me ts r m m') ∧
    (¬ m.CanAwait timeout → { m with host := .native }.step =
      some (({ m with host := .native }.setStack me ts).panic me Instant.overflowText)) := by
  intro r
  have hcount : 0 < (k.poll (m.resolve named)).1 := by
    obtain ⟨e, he, hany⟩ := hready
    exact List.countP_pos_iff.mpr ⟨e, he, hany⟩
  have hstep : ∀ host, { m with host }.step =
      some (({ m with host }.setStack me ts).select me named timeout) :=
    fun host => step_of_held (m := { m with host }) hturn hstack
  refine ⟨⟨_, hstep .coop, ?_⟩, fun hdeadline => ⟨_, hstep .native, ?_⟩, fun hdeadline => ?_⟩
  · have hperform : ({ m with host := .coop }.setStack me ts).select me named timeout =
        (({ m with host := .coop }.setStack me ts).onSched
          (Sched.elapse Sched.pollCost)).answer me r :=
      selectEntries_of_done me hsystem (.inl hcount)
    rw [hperform]
    exact ⟨(stackOf_answer ..).trans (stackOf_onThread ..), replyOf_answer .., hturn, rfl, rfl, rfl⟩
  · have hperform : ({ m with host := .native }.setStack me ts).select me named timeout =
        ({ m with host := .native }.setStack me ts).answer me r :=
      pollHere_of_done me hsystem (.inl hcount) hdeadline
    rw [hperform]
    exact ⟨(stackOf_answer ..).trans (stackOf_onThread ..), replyOf_answer .., hturn, rfl, rfl, rfl⟩
  · exact (hstep .native).trans (congrArg some (pollHere_of_overflow me _ hdeadline))

/-- The main thread waits until there is room in a pipe, for longer than the clock can tell. -/
def farDeadline (host : Host) : Program :=
  { Program.blank with
    host
    code := [[.select [(.pipe 0 .writer, .writable)] (some (.ofParts 18446744073709551615 0))]] }

/-- There is room at once: the scheduler replies, and the native host panics. -/
theorem select_agrees_when_ready_farDeadline :
    let m := (farDeadline .coop).final 1
    let ts := [Task.report "select", .exit]
    (∃ m', { m with host := .coop }.step = some m' ∧ Returns 1 ts (.selected 1 [.writable]) m m') ∧
    { m with host := .native }.step =
      some (({ m with host := .native }.setStack 1 ts).panic 1 Instant.overflowText) := by
  intro m ts
  have hturn : m.sched.turn = .held 1 := by decide
  have hstack : m.stackOf 1 = .select [(.pipe 0 .writer, .writable)]
      (some (.ofParts 18446744073709551615 0)) :: ts := rfl
  have hready : ∃ e ∈ m.resolve [(.pipe 0 .writer, .writable)],
      (m.pipes.poller.found e).any = true := by decide
  have hreply : selectedReply (m.pipes.poller.poll
      (m.resolve [(.pipe 0 .writer, .writable)])).2 = .selected 1 [.writable] := by decide
  obtain ⟨hcoop, -, hnative⟩ := select_agrees_when_ready hturn hstack rfl hready
  exact ⟨hreply ▸ hcoop, hnative (by decide)⟩

/-- So the hosts do not agree for all timeouts. -/
theorem select_disagrees_farDeadline :
    ¬ ∀ (m : Machine) (me : ThreadId) (named : List (Descriptor × Interest))
      (timeout : Option Span) (ts : List Task) (k : Poller Descriptor),
      m.sched.turn = .held me → m.stackOf me = .select named timeout :: ts → m.system = .ok k →
      (∃ e ∈ m.resolve named, (k.found e).any = true) →
      let r := selectedReply (k.poll (m.resolve named)).2
      (∃ m', { m with host := .coop }.step = some m' ∧ Returns me ts r m m') ∧
        ∃ m', { m with host := .native }.step = some m' ∧ Returns me ts r m m' := by
  intro h
  obtain ⟨-, m', hstep, hreturns⟩ := h ((farDeadline .native).final 1) 1
    [(.pipe 0 .writer, .writable)] (some (.ofParts 18446744073709551615 0))
    [.report "select", .exit] ((farDeadline .native).final 1).pipes.poller rfl rfl rfl
    (by decide)
  have hreply : ((farDeadline .native).final 2).replyOf 1 = .null := rfl
  obtain rfl : (farDeadline .native).final 2 = m' := Option.some.inj hstep
  exact absurd (hreply.symm.trans hreturns.reply) (by decide)

/-! ## Looks -/

/-- The thread goes on with the tasks `ts` and has been told nothing. -/
structure GoesOn (me : ThreadId) (ts : List Task) (m m' : Machine) : Prop where
  stack : m'.stackOf me = ts
  reply : m'.replyOf me = m.replyOf me

/-- The thread panics, since a deadline cannot be formed. -/
abbrev Overflows (me : ThreadId) (ts : List Task) (m m' : Machine) : Prop :=
  GoesOn me (ts.filter Task.isCleanup ++ [.abort Instant.overflowText]) m m'

/-- What comes of a look at the entries that is repeated, with the turn kept, until one is ready or
the time is up. The deadline is formed before the look. -/
structure LooksHere (me : ThreadId) (entries : List (PollEntry Descriptor)) (timeout : Option Span)
    (ts : List Task) (m m' : Machine) : Prop where
  returns : ∀ k, m.system = .ok k → 0 < (k.poll entries).1 ∨ timeout.isSome = true →
    m.CanAwait timeout → Returns me ts (selectedReply (k.poll entries).2) m m'
  fails : ∀ e, m.system = .error e → m.CanAwait timeout → Returns me ts (.io (.system e)) m m'
  repeats : ∀ k, m.system = .ok k → (k.poll entries).1 = 0 → timeout = none →
    GoesOn me (.pollHere entries none :: ts) m m'
  panics : ¬ m.CanAwait timeout → Overflows me ts m m'

/-- What comes of one look at the entries, after which the thread waits for the scheduler to poll.
The deadline is formed after the look. -/
structure LooksOnce (me : ThreadId) (entries : List (PollEntry Descriptor)) (timeout : Option Span)
    (ts : List Task) (m m' : Machine) : Prop where
  returns : ∀ k, m.system = .ok k → 0 < (k.poll entries).1 ∨ timeout = some .zero →
    Returns me ts (selectedReply (k.poll entries).2) m m'
  fails : ∀ e, m.system = .error e → Returns me ts (.io (.system e)) m m'
  waits : ∀ k, m.system = .ok k → (k.poll entries).1 = 0 → timeout ≠ some .zero →
    (m.onSched (Sched.elapse Sched.pollCost)).CanAwait timeout →
    GoesOn me (.collect :: ts) m m' ∧
      ∃ deadline, m'.sched.waiters = m.sched.waiters ++ [⟨me, entries, deadline⟩]
  panics : ∀ k, m.system = .ok k → (k.poll entries).1 = 0 → timeout ≠ some .zero →
    ¬ (m.onSched (Sched.elapse Sched.pollCost)).CanAwait timeout → Overflows me ts m m'

/-- What comes of a look for the outcome of a wait. -/
structure Fetches (me : ThreadId) (ts : List Task) (m m' : Machine) : Prop where
  returns : ∀ ps, m.sched.delivery? me = some (.ok ps) →
    m'.stackOf me = ts ∧ m'.replyOf me = selectedReply ps
  fails : ∀ e, m.sched.delivery? me = some (.error e) →
    m'.stackOf me = ts ∧ m'.replyOf me = .io (.system e)
  repeats : m.sched.delivery? me = none → GoesOn me (.suspend :: .collect :: ts) m m'

/-- What a step of `me` makes of a look. -/
def Looks (me : ThreadId) (ts : List Task) (m m' : Machine) : Task → Prop
  | .pollHere entries timeout => LooksHere me entries timeout ts m m'
  | .selectHere entries timeout => LooksOnce me entries timeout ts m m'
  | .select named timeout => match m.host with
    | .native => LooksHere me (m.resolve named) timeout ts m m'
    | _ => LooksOnce me (m.resolve named) timeout ts m m'
  | .collect => Fetches me ts m m'
  | _ => True

section Looks

variable (hts : m.stackOf me = ts)
include hts

theorem goesOn_push (xs : List Task) : GoesOn me (xs ++ ts) m (m.push me xs) :=
  ⟨(stackOf_push ..).trans (congrArg (xs ++ ·) hts), replyOf_push ..⟩

theorem overflows_panic : Overflows me ts m (m.panic me Instant.overflowText) :=
  ⟨hts ▸ stackOf_panic .., replyOf_panic ..⟩

theorem returns_answer (r : Reply) (hturn : m.sched.turn = .held me) :
    Returns me ts r m (m.answer me r) :=
  ⟨(stackOf_answer ..).trans hts, replyOf_answer .., hturn, rfl, rfl, rfl⟩

theorem looksHere_pollHere (hturn : m.sched.turn = .held me) :
    LooksHere me entries timeout ts m (m.pollHere me entries timeout) where
  returns k hsystem hdone hdeadline := by
    rw [pollHere_of_done me hsystem hdone hdeadline]
    exact returns_answer hts _ hturn
  fails e hsystem hdeadline := by
    have hpolled : m.system.pollTimed m.sched.clock timeout entries = some (.error e) := by
      rw [PollSystem.pollTimed, hsystem, hdeadline]
      rfl
    unfold pollHere
    rw [hpolled]
    exact returns_answer hts _ hturn
  repeats k hsystem hcount htimeout := by
    subst htimeout
    have hpolled : m.system.pollTimed m.sched.clock none entries = some (.ok (k.poll entries)) := by
      rw [hsystem]
      rfl
    unfold pollHere
    rw [hpolled]
    simp only [hcount, Nat.lt_irrefl, decide_false, Option.isSome_none, Bool.or_self,
      Bool.false_eq_true, ↓reduceIte, gt_iff_lt]
    exact goesOn_push hts [.pollHere entries none]
  panics hdeadline := by
    rw [pollHere_of_overflow me entries hdeadline]
    exact overflows_panic hts

theorem looksOnce_selectEntries (hturn : m.sched.turn = .held me) :
    LooksOnce me entries timeout ts m (m.selectEntries me entries timeout) := by
  have hpolled : (m.onSched (Sched.elapse Sched.pollCost)).stackOf me = ts := hts
  have hanswers : ∀ r, Returns me ts r m
      ((m.onSched (Sched.elapse Sched.pollCost)).answer me r) := fun r =>
    { returns_answer hpolled r hturn with }
  refine ⟨fun k hsystem hdone => ?_, fun e hsystem => ?_,
    fun k hsystem hcount hzero hdeadline => ?_, fun k hsystem hcount hzero hdeadline => ?_⟩
  · rw [selectEntries_of_done me hsystem hdone]
    exact hanswers _
  · unfold selectEntries
    rw [hsystem]
    exact hanswers _
  · obtain ⟨deadline, hwaits⟩ := (selectEntries_of_silent me hsystem hcount hzero).1 hdeadline
    rw [hwaits]
    exact ⟨{ goesOn_push hpolled [.collect] with }, deadline, rfl⟩
  · rw [(selectEntries_of_silent me hsystem hcount hzero).2 hdeadline]
    exact { overflows_panic hpolled with }

theorem fetches_collect : Fetches me ts m (m.collect me) where
  returns ps hdelivery := by
    unfold collect
    rw [hdelivery]
    exact ⟨(stackOf_answer ..).trans hts, replyOf_answer ..⟩
  fails e hdelivery := by
    unfold collect
    rw [hdelivery]
    exact ⟨(stackOf_answer ..).trans hts, replyOf_answer ..⟩
  repeats hdelivery := by
    unfold collect
    rw [hdelivery]
    exact goesOn_push hts [.suspend, .collect]

end Looks

/-- It makes no difference to what comes of a look that its task has been taken off the stack. -/
theorem GoesOn.of_setStack {us : List Task} (h : GoesOn me us (m.setStack me ts) m') :
    GoesOn me us m m' :=
  ⟨h.stack, h.reply.trans (replyOf_setStack ..)⟩

theorem LooksHere.of_setStack (h : LooksHere me entries timeout ts (m.setStack me ts) m') :
    LooksHere me entries timeout ts m m' where
  returns k hsystem hdone hdeadline := { h.returns k hsystem hdone hdeadline with }
  fails e hsystem hdeadline := { h.fails e hsystem hdeadline with }
  repeats k hsystem hcount htimeout := (h.repeats k hsystem hcount htimeout).of_setStack
  panics hdeadline := (h.panics hdeadline).of_setStack

theorem LooksOnce.of_setStack (h : LooksOnce me entries timeout ts (m.setStack me ts) m') :
    LooksOnce me entries timeout ts m m' where
  returns k hsystem hdone := { h.returns k hsystem hdone with }
  fails e hsystem := { h.fails e hsystem with }
  waits k hsystem hcount hzero hdeadline :=
    (h.waits k hsystem hcount hzero hdeadline).imp_left GoesOn.of_setStack
  panics k hsystem hcount hzero hdeadline :=
    (h.panics k hsystem hcount hzero hdeadline).of_setStack

theorem looks_of_step (hturn : m.sched.turn = .held me) (hstack : m.stackOf me = x :: ts)
    (hstep : m.step = some m') : Looks me ts m m' x := by
  obtain rfl : m' = _ := eq_perform_of_step hturn hstack hstep
  have hts : (m.setStack me ts).stackOf me = ts := stackOf_onThread ..
  have hheld : (m.setStack me ts).sched.turn = .held me := hturn
  cases x with
  | pollHere entries timeout => exact (looksHere_pollHere hts hheld).of_setStack
  | selectHere entries timeout => exact (looksOnce_selectEntries hts hheld).of_setStack
  | select named timeout =>
      rw [Looks, Machine.perform, select, show (m.setStack me ts).host = m.host from rfl]
      cases m.host with
      | native => exact (looksHere_pollHere hts hheld).of_setStack
      | coop | outside => exact (looksOnce_selectEntries hts hheld).of_setStack
  | collect =>
      have h : Fetches me ts (m.setStack me ts) ((m.setStack me ts).collect me) :=
        fetches_collect hts
      exact ⟨h.returns, h.fails, fun hdelivery => (h.repeats hdelivery).of_setStack⟩
  | _ => trivial

/-! ## What a wait replies -/

/-- The task tells its thread `r`, whatever the thread was told before. -/
def Tells (me : ThreadId) (m : Machine) (x : Task) (r : Reply) : Prop :=
  ∀ old, ((m.answer me old).perform me x).replyOf me = r

/-- The entries of the call that a task belongs to. A call that has been suspended goes on with the
wait that it registered, which is the last one of its thread. -/
inductive Concerns (τ : List WaitEvent) (me : ThreadId) (m : Machine) :
    Task → List (PollEntry Descriptor) → Prop where
  | pollHere (entries : List (PollEntry Descriptor)) (timeout : Option Span) :
      Concerns τ me m (.pollHere entries timeout) entries
  | selectHere (entries : List (PollEntry Descriptor)) (timeout : Option Span) :
      Concerns τ me m (.selectHere entries timeout) entries
  | select (named : List (Descriptor × Interest)) (timeout : Option Span) :
      Concerns τ me m (.select named timeout) (m.resolve named)
  | collect {σ : List WaitEvent} {w : Waiter Descriptor} {d : Delivery Descriptor} :
      WaitEvent.of me τ = σ ++ [.begun w, .settled me d] → Concerns τ me m .collect w.entries

theorem replyOf_answer_null_ne (me : ThreadId) (m : Machine) (n : Nat) (found : List Interest) :
    (m.answer me .null).replyOf me ≠ .selected n found := by
  rw [replyOf_answer]
  nofun

/-- A wait on the scheduler that replies at once has found what a poll of its entries finds. -/
theorem found_of_selectEntries
    (h : ((m.answer me .null).selectEntries me entries timeout).replyOf me = .selected n found) :
    ∃ k, m.system = .ok k ∧ .selected n found = selectedReply (k.poll entries).2 := by
  unfold selectEntries at h
  rw [show (m.answer me .null).system = m.system from rfl] at h
  cases hsystem : m.system with
  | error e =>
      rw [hsystem] at h
      exact absurd ((replyOf_answer ..).symm.trans h) nofun
  | ok k =>
      rw [hsystem] at h
      dsimp only [PollSystem.poll, Except.map] at h
      split at h
      · exact ⟨k, rfl, h.symm.trans ((replyOf_answer ..).trans (selectedReply_poll k entries).symm)⟩
      · -- The wait is registered, or the deadline cannot be formed: nothing is replied.
        have hsilent := replyOf_answer_null_ne me m n found
        split at h
        · exact absurd ((replyOf_push ..).symm.trans h) hsilent
        · split at h
          · exact absurd ((replyOf_push ..).symm.trans h) hsilent
          · exact absurd ((replyOf_panic ..).symm.trans h) hsilent

/-- A poll without giving the turn away replies what it finds. -/
theorem found_of_pollHere
    (h : ((m.answer me .null).pollHere me entries timeout).replyOf me = .selected n found) :
    ∃ k, m.system = .ok k ∧ .selected n found = selectedReply (k.poll entries).2 := by
  have hsilent := replyOf_answer_null_ne me m n found
  unfold pollHere at h
  split at h
  · exact absurd ((replyOf_panic ..).symm.trans h) hsilent
  · exact absurd ((replyOf_answer ..).symm.trans h) (by simp)
  · rename_i c filled hpoll
    obtain ⟨k, hsystem, hfilled⟩ :=
      PollSystem.exists_poller_of_poll (PollSystem.poll_of_pollTimed hpoll)
    split at h
    · refine ⟨k, hsystem, h.symm.trans ((replyOf_answer ..).trans ?_)⟩
      rw [selectedReply_poll, hfilled]
    · exact absurd ((replyOf_push ..).symm.trans h) hsilent

/-- A wait that has an outcome replies it. -/
theorem found_of_collect
    (h : ((m.answer me .null).collect me).replyOf me = .selected n found) :
    ∃ ps, m.sched.delivery? me = some (.ok ps) ∧ .selected n found = selectedReply ps := by
  unfold collect at h
  rw [show (m.answer me .null).sched.delivery? me = m.sched.delivery? me from rfl] at h
  cases hdelivery : m.sched.delivery? me with
  | none =>
      rw [hdelivery] at h
      exact absurd ((replyOf_push ..).symm.trans h) (replyOf_answer_null_ne me m n found)
  | some d =>
      rw [hdelivery] at h
      have hreply := (replyOf_answer ..).symm.trans h
      cases d with
      | error e => cases hreply
      | ok ps => exact ⟨ps, rfl, hreply.symm⟩

/-! ## Outcomes of polls -/

/-- An outcome that a thread has not fetched yet is the answer of the system at some moment of the
run to the wait that the thread has registered last. -/
theorem Observed.answered_by_system {w : Waiter Descriptor} {d : Delivery Descriptor}
    (h : Observed waitEvents p τ m) (hids : m.sched.ids.handed ≤ UInt64.size)
    (hτ : WaitEvent.of t τ = σ ++ [.begun w, .settled t d]) :
    ∃ m₀, Reaches p.machine m₀ ∧ d = w.answer m₀.system := by
  induction h generalizing σ with
  | start => simp [WaitEvent.of] at hτ
  | @step τ m m' hm hstep ih =>
      have hhanded := Nat.le_trans (handed_le_of_step hstep) hids
      rw [WaitEvent.of_append] at hτ
      by_cases hnone : WaitEvent.of t m.waitEvents = []
      · rw [hnone, List.append_nil] at hτ
        exact ih hhanded hτ
      · -- The last event is one of this step, and then the only one.
        have hmem : .settled t d ∈ m.waitEvents := by
          have hlast := congrArg List.getLast? hτ
          rw [List.getLast?_append_of_ne_nil _ hnone] at hlast
          simp only [List.getLast?_append, List.getLast?_cons_cons, List.getLast?_singleton,
            Option.some_or] at hlast
          exact (List.mem_filter.mp (List.mem_of_getLast? hlast)).1
        obtain ⟨v, hone, rfl, hevents, -⟩ :=
          answered_of_settled (hm.reaches.enrolled hhanded) hstep hmem
        obtain ⟨calls, rest, hbefore, -, hrest⟩ := hm.follows hhanded t
        cases hrest with
        | outside _ hwaits => exact absurd (hone.symm.trans hwaits) (by simp)
        | answered _ _ _ _ hwaits => exact absurd (hone.symm.trans hwaits) (by simp)
        | @registered u _ hwaits =>
            obtain rfl : u = v := by simpa using hwaits.symm.trans hone
            have hsame : (calls.flatMap (fun c => WaitEvent.call c.1 c.2) ++ [.begun u]) ++
                [.settled t (u.answer m.system)] =
                (σ ++ [.begun w]) ++ [.settled t (u.answer m.system)] := by
              rw [← hbefore, ← hevents, hτ, hevents]
              simp
            have hwait : u = w := by
              have hend := List.append_inj_right' (List.append_cancel_right hsame) rfl
              simpa using hend
            exact ⟨m, hm.reaches, by rw [hwait]⟩
  | wake id _ ih => exact ih (by simpa [wakeFromOutside, onSched] using hids) hτ
  | elapse d _ ih => exact ih hids hτ
  | outage e _ ih => exact ih hids hτ

/-! ## Runs -/

/-- A reply that tells of entries is one poll of the entries of the call. -/
theorem Observed.found_of_tells (h : Observed waitEvents p τ m)
    (hids : m.sched.ids.handed ≤ UInt64.size) (hstack : m.stackOf me = x :: ts)
    (hx : x.looks = true) (htells : Tells me (m.setStack me ts) x (.selected n found)) :
    ∃ entries, Concerns τ me m x entries ∧ ∃ m₀ k, Reaches p.machine m₀ ∧ m₀.system = .ok k ∧
      .selected n found = selectedReply (k.poll entries).2 := by
  have hnow : ∀ {entries k}, m.system = .ok k →
      Reply.selected n found = selectedReply (k.poll entries).2 →
      ∃ m₀ k, Reaches p.machine m₀ ∧ m₀.system = .ok k ∧
        .selected n found = selectedReply (k.poll entries).2 :=
    fun hsystem hreply => ⟨m, _, h.reaches, hsystem, hreply⟩
  cases x with
  | pollHere entries timeout =>
      obtain ⟨k, hsystem, hreply⟩ := found_of_pollHere (htells .null)
      exact ⟨entries, .pollHere entries timeout, hnow hsystem hreply⟩
  | selectHere entries timeout =>
      obtain ⟨k, hsystem, hreply⟩ := found_of_selectEntries (htells .null)
      exact ⟨entries, .selectHere entries timeout, hnow hsystem hreply⟩
  | select named timeout =>
      refine ⟨m.resolve named, .select named timeout, ?_⟩
      have hreply : (((m.setStack me ts).answer me .null).select me named timeout).replyOf me =
          .selected n found := htells .null
      unfold select at hreply
      split at hreply
      · obtain ⟨k, hsystem, hreply⟩ := found_of_pollHere hreply
        exact hnow hsystem hreply
      · obtain ⟨k, hsystem, hreply⟩ := found_of_selectEntries hreply
        exact hnow hsystem hreply
  | collect =>
      obtain ⟨ps, hdelivery, hreply⟩ := found_of_collect (htells .null)
      have hdelivery : m.sched.delivery? me = some (.ok ps) := hdelivery
      obtain ⟨calls, rest, hτ, -, hrest⟩ := h.follows hids me
      cases hrest with
      | outside _ _ hnone => exact absurd (hnone.symm.trans hdelivery) (by simp)
      | registered _ _ hnone => exact absurd (hnone.symm.trans hdelivery) (by simp)
      | @answered w d _ _ _ _ _ hsome =>
          obtain rfl : d = .ok ps := Option.some.inj (hsome.symm.trans hdelivery)
          obtain ⟨m₀, hm₀, hanswer⟩ := h.answered_by_system hids hτ
          obtain ⟨k, hsystem, rfl⟩ := Waiter.exists_poller_of_answer hanswer.symm
          exact ⟨w.entries, .collect hτ, m₀, k, hm₀, hsystem, hreply⟩
  | _ => cases hx

/-- The reply to a poll of the machine is what its honest system call reports. -/
theorem selected_of_poll {m₀ : Machine} (hsystem : m₀.system = .ok k)
    (hreply : .selected n found = selectedReply (k.poll entries).2) :
    m₀.pipes.kernel.Honest ∧ n = (m₀.pipes.kernel.poll entries).1 ∧
      found = (m₀.pipes.kernel.poll entries).2.map PollEntry.revents ∧
      n = found.countP fun a => !a.isEmpty := by
  have hk : k = m₀.pipes.poller := by
    unfold system at hsystem
    split at hsystem
    · cases hsystem
    · exact (Except.ok.inj hsystem).symm
  have hkernel := m₀.pipes.honest_kernel
  have hpoll : k.poll entries = m₀.pipes.kernel.poll entries := by
    rw [hkernel.poll_eq, Pipes.poller_kernel, hk]
  rw [hpoll, selectedReply] at hreply
  obtain ⟨rfl, rfl⟩ := Reply.selected.inj hreply
  refine ⟨hkernel, (hkernel.tallies.counts entries).symm, rfl, ?_⟩
  rw [List.countP_map]
  rfl

/-- The count that a wait for descriptors replies is that of its entries with anything to report, in
whatever way it ends. An honest system call is read without loss: what entries held before is
overwritten, the call's own count is that of the entries which are ready, and so the test of the
count is the test of the entries, for a caller's own poll and for the one made for all waiters. In
any run in which no giver panics each wait is registered with the entries of its call. A look that
succeeds returns with the count and the findings of its poll, one that fails with the error, and any
other does not return (`Looks`). And each reply that tells of entries, at once or after a wait, is
one such poll of the entries of the call. -/
theorem selected_counts_found :
    (∀ (δ : Type) (K : Kernel δ), K.Honest → K.Tallies) ∧
    ∀ (p : Program) (τ : List WaitEvent) (m : Machine), Observed waitEvents p τ m →
      m.sched.ids.history.Nodup →
      (∀ m' w, m.step = some m' → m'.sched.ids.history.Nodup → .begun w ∈ m.waitEvents →
        m.sched.turn = .held w.id ∧ ∃ x ts, m.stackOf w.id = x :: ts ∧ m.AsksFor w.entries x) ∧
      (∀ me x ts m', m.sched.turn = .held me → m.stackOf me = x :: ts → m.step = some m' →
        Looks me ts m m' x) ∧
      ∀ me x ts n found, m.stackOf me = x :: ts → x.looks = true →
        Tells me (m.setStack me ts) x (.selected n found) →
        ∃ entries, Concerns τ me m x entries ∧ ∃ m₀, Reaches p.machine m₀ ∧
          m₀.pipes.kernel.Honest ∧ n = (m₀.pipes.kernel.poll entries).1 ∧
          found = (m₀.pipes.kernel.poll entries).2.map PollEntry.revents ∧
          n = found.countP fun a => !a.isEmpty := by
  refine ⟨fun _ _ h => h.tallies, fun p τ m h hids => ?_⟩
  have hhanded := IdAllocator.nodup_history_iff.mp hids
  refine ⟨fun m' w hstep hids' hw => begun_mem_waitEvents (h.reaches.sound hhanded) hstep
      (IdAllocator.nodup_history_iff.mp hids') hw,
    fun me x ts m' => looks_of_step, fun me x ts n found hstack hx htells => ?_⟩
  obtain ⟨entries, hconcerns, m₀, k, hm₀, hsystem, hreply⟩ :=
    h.found_of_tells hhanded hstack hx htells
  exact ⟨entries, hconcerns, m₀, hm₀, selected_of_poll hsystem hreply⟩

/-- After forty-seven steps the waiting thread of `patientReader` looks for its outcome again, and
is told of the one byte that has come. -/
theorem selected_counts_found_patientReader :
    let m := patientReader.final 47
    m.pipes.kernel.Tallies ∧ m.sched.ids.history.Nodup ∧ ∃ ts, m.stackOf 2 = .collect :: ts ∧
      Tells 2 (m.setStack 2 ts) .collect (.selected 1 [.readable]) ∧
      ∃ entries, Concerns (patientReader.machine.notes waitEvents 47) 2 m .collect entries ∧
        ∃ m₀, Reaches patientReader.machine m₀ ∧ 1 = (m₀.pipes.kernel.poll entries).1 ∧
          [.readable] = (m₀.pipes.kernel.poll entries).2.map PollEntry.revents := by
  intro m
  have hids : m.sched.ids.history.Nodup := by decide
  have hstack : m.stackOf 2 = [.collect, .forgetFound, .report "wait_readable", .exit] := rfl
  have htells : Tells 2 (m.setStack 2 [.forgetFound, .report "wait_readable", .exit]) .collect
      (.selected 1 [.readable]) := fun _ => rfl
  obtain ⟨-, -, hreplies⟩ := selected_counts_found.2 patientReader _ m
    (observed_final waitEvents 47 patientReader) hids
  obtain ⟨entries, hconcerns, m₀, hm₀, -, hcount, hfound, -⟩ :=
    hreplies 2 .collect _ 1 [.readable] hstack rfl htells
  exact ⟨selected_counts_found.1 _ _ m.pipes.honest_kernel, hids, _, hstack, htells, entries,
    hconcerns, m₀, hm₀, hcount, hfound⟩

end Machine

end Baton
