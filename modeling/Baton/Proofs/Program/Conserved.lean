import Baton.Proofs.Program.Drained
import Baton.Proofs.Program.Observed
import Baton.Proofs.Sched.Answers

/-!
# Machine: waits for descriptors are conserved

A wait for descriptors is registered, answered by one poll, and returns with that answer. Whatever
wakes the thread meanwhile, it finds itself registered without an outcome or answered and not
registered any more, never both and never neither; outside a wait it is neither. So the history of a
thread's waits is a sequence of whole calls, each with the answer to its own entries, and perhaps
one that is under way.
-/

namespace Baton

/-- Something that happens to a wait for descriptors. -/
inductive WaitEvent where
  | begun (w : Waiter Descriptor)
  /-- A poll has an outcome for the thread. -/
  | settled (id : ThreadId) (d : Delivery Descriptor)
  /-- The wait returns with an outcome. -/
  | returned (id : ThreadId) (d : Delivery Descriptor)

namespace WaitEvent

/-- The thread whose wait it is. -/
def thread : WaitEvent → ThreadId
  | begun w => w.id
  | settled id _ | returned id _ => id

/-- The events of one thread. -/
def of (t : ThreadId) (τ : List WaitEvent) : List WaitEvent := τ.filter fun e => e.thread = t

theorem of_append (t : ThreadId) (τ σ : List WaitEvent) : of t (τ ++ σ) = of t τ ++ of t σ :=
  List.filter_append ..

/-- The events of a wait that has returned. -/
def call (w : Waiter Descriptor) (d : Delivery Descriptor) : List WaitEvent :=
  [begun w, settled w.id d, returned w.id d]

end WaitEvent

namespace Machine

open Sched (SameWaits)
open WaitEvent

variable {p : Program} {τ σ rest : List WaitEvent} {m m' : Machine} {me t : ThreadId} {x : Task}
  {ts : List Task}

/-- The waits that a task registers. -/
def registered (me : ThreadId) (m : Machine) (x : Task) : List (Waiter Descriptor) :=
  (m.perform me x).sched.waiters.drop m.sched.waiters.length

/-- What a task does with waits for descriptors. -/
def waitEventsOf (me : ThreadId) (m : Machine) : Task → List WaitEvent
  | .collect => (m.sched.delivery? me).toList.map (.returned me)
  | x => (m.registered me x).map .begun

/-- What the next step does with waits for descriptors. -/
def waitEvents (m : Machine) : List WaitEvent :=
  m.ofTask waitEventsOf ++ (m.sched.handedOut m.system).map fun d => .settled d.1 d.2

/-- What a wait that ends with an outcome replies. -/
def waitReply : Delivery Descriptor → Reply
  | .ok ps => selectedReply ps
  | .error e => .io (.system e)

/-- How far the wait of a thread has come, and the events that it has left so far. Outside a wait
there is no registration and no outcome; inside there is one of them. -/
inductive Underway (t : ThreadId) (m : Machine) : List WaitEvent → Prop where
  | outside : .collect ∉ m.stackOf t → m.sched.waitsOf t = [] → m.sched.delivery? t = none →
      Underway t m []
  | registered {w : Waiter Descriptor} : collects (m.stackOf t) = true →
      m.sched.waitsOf t = [w] → m.sched.delivery? t = none → Underway t m [.begun w]
  | answered {w : Waiter Descriptor} {d : Delivery Descriptor} (system : PollSystem Descriptor) :
      w.id = t → d = w.answer system → collects (m.stackOf t) = true → m.sched.waitsOf t = [] →
      m.sched.delivery? t = some d → Underway t m [.begun w, .settled t d]

/-- The history of a thread's waits: calls that have returned, each with the answer to its own
entries, and what is under way. -/
def Follows (t : ThreadId) (τ : List WaitEvent) (m : Machine) : Prop :=
  ∃ (calls : List (Waiter Descriptor × Delivery Descriptor)) (rest : List WaitEvent),
    WaitEvent.of t τ = calls.flatMap (fun c => call c.1 c.2) ++ rest ∧
    (∀ c ∈ calls, ∃ system, c.2 = c.1.answer system) ∧ Underway t m rest

/-! ## What one step does to the wait of one thread -/

theorem Follows.next (h : Follows t τ m) (hnext : ∀ rest, Underway t m rest →
    Underway t m' (rest ++ WaitEvent.of t σ)) : Follows t (τ ++ σ) m' := by
  obtain ⟨calls, rest, hτ, hcalls, hrest⟩ := h
  exact ⟨calls, _, by rw [of_append, hτ, List.append_assoc], hcalls, hnext rest hrest⟩

theorem Follows.congr (h : Follows t τ m)
    (hstay : ∀ rest, Underway t m rest → Underway t m' rest) : Follows t τ m' := by
  obtain ⟨calls, rest, hτ, hcalls, hrest⟩ := h
  exact ⟨calls, rest, hτ, hcalls, hstay rest hrest⟩

/-- Nothing happens to the wait of the thread. -/
theorem Follows.stay (h : Follows t τ m) (hσ : WaitEvent.of t σ = [])
    (hstay : ∀ rest, Underway t m rest → Underway t m' rest) : Follows t (τ ++ σ) m' :=
  h.next fun rest hrest => by simpa [hσ] using hstay rest hrest

theorem Underway.congr (h : Underway t m rest)
    (hstack : (.collect ∈ m'.stackOf t → .collect ∈ m.stackOf t) ∧
      (collects (m.stackOf t) = true → collects (m'.stackOf t) = true))
    (hwaits : m'.sched.waitsOf t = m.sched.waitsOf t)
    (hdelivery : m'.sched.delivery? t = m.sched.delivery? t) : Underway t m' rest := by
  cases h with
  | outside hnot hnone hempty =>
      exact .outside (fun hmem => hnot (hstack.1 hmem)) (hwaits.trans hnone)
        (hdelivery.trans hempty)
  | registered hcollects hone hempty =>
      exact .registered (hstack.2 hcollects) (hwaits.trans hone) (hdelivery.trans hempty)
  | answered system hid hd hcollects hnone hsome =>
      exact .answered system hid hd (hstack.2 hcollects) (hwaits.trans hnone)
        (hdelivery.trans hsome)

theorem mem_collect_of_collects (h : collects ts = true) : .collect ∈ ts := by
  match ts with
  | .collect :: _ => exact List.mem_cons_self
  | .suspend :: .collect :: _ => exact List.mem_cons_of_mem _ List.mem_cons_self

theorem Underway.waitsOf_of_nil (h : Underway t m rest) (hc : collects (m.stackOf t) = false) :
    rest = [] ∧ m.sched.waitsOf t = [] ∧ m.sched.delivery? t = none := by
  cases h with
  | outside _ hnone hempty => exact ⟨rfl, hnone, hempty⟩
  | registered hcollects => exact absurd (hcollects.symm.trans hc) (by simp)
  | answered _ _ _ hcollects => exact absurd (hcollects.symm.trans hc) (by simp)

theorem waitsOf_eq_nil_iff {s : Sched} : s.waitsOf t = [] ↔ ¬ s.Registered t := by
  simp [Sched.waitsOf, Sched.Registered, List.filter_eq_nil_iff]

/-- Who looks for the outcome of a wait is registered or has the outcome. -/
theorem Sound.kept_collect (h : m.Sound) (hmem : .collect ∈ m.stackOf t) :
    m.Kept t .collect := by
  have hplain : ∀ {ts : List Task}, (∀ y ∈ ts, y.isPlain = true) → .collect ∉ ts :=
    fun hall hmem => Bool.false_ne_true (hall _ hmem)
  have htail : ∀ {ts}, Tail t m ts → .collect ∉ ts := by
    intro ts ht
    cases ht with
    | plain hall => exact hplain hall
    | @recheck x ts hx _ hall =>
        refine fun hmem => (List.mem_cons.mp hmem).elim (fun he => ?_) (hplain hall)
        subst he
        cases hx
  have hparked : ∀ {ts}, Parked t m ts → .collect ∈ ts → m.Kept t .collect := by
    intro ts hp hmem
    cases hp with
    | tail ht => exact absurd hmem (htail ht)
    | @wait x ts _ hk hall =>
        rcases List.mem_cons.mp hmem with rfl | hmem
        · exact hk
        · exact absurd hmem (hplain hall)
    | acquire ht => exact absurd ((List.mem_cons.mp hmem).resolve_left (by simp)) (htail ht)
    | awaitOwner _ ht =>
        exact absurd ((List.mem_cons.mp hmem).resolve_left (by simp)) (htail ht)
    | leave ht =>
        have hrest := (List.mem_cons.mp hmem).resolve_left (by simp)
        exact absurd ((List.mem_cons.mp hrest).resolve_left (by simp)) (htail ht)
  by_cases hturn : m.sched.turn = .held t
  · have hcourse := h.course t hturn
    generalize m.stackOf t = ts at *
    cases hcourse with
    | parked hp => exact hparked hp hmem
    | suspend _ _ hp => exact hparked hp ((List.mem_cons.mp hmem).resolve_left (by simp))
    | release _ ht =>
        simp only [List.mem_cons, reduceCtorEq, false_or] at hmem
        exact absurd hmem (htail ht)
    | sleepReader _ _ hall =>
        simp only [List.mem_cons, reduceCtorEq, false_or] at hmem
        exact absurd hmem (hplain hall)
    | sleepWriter _ _ hall =>
        simp only [List.mem_cons, reduceCtorEq, false_or] at hmem
        exact absurd hmem (hplain hall)
  · exact hparked (h.parked t hturn) hmem

/-! ## Tasks -/

theorem delivery?_retire_of_none {s : Sched} (turn : Turn) (hnone : s.delivery? t = none) :
    (s.retire me turn).delivery? t = none := by
  by_cases ht : t = me
  · have hget : (s.retire me turn).slots.get? t = none :=
      (Store.get?_erase ..).trans (if_pos ht)
    rw [Sched.delivery?, hget]
    rfl
  · exact (Sched.delivery?_retire turn ht).trans hnone

/-- A task that does not end a wait hands nobody an outcome. -/
theorem delivery?_perform_of_none (hselect : x.isSelect = false) (hx : x ≠ .collect)
    (hnone : m.sched.delivery? t = none) : (m.perform me x).sched.delivery? t = none := by
  cases hroutine : x.isRoutine with
  | true => exact ((perform_routine me m hroutine).sched.delivery t).trans hnone
  | false =>
      have hfinish : ∀ n o, n.sched.delivery? t = none →
          (Machine.finish me o n).sched.delivery? t = none := by
        intro n o hn
        unfold finish
        split
        · exact hn
        · exact ((Sched.routine_wakeAll _ _).delivery t).trans (delivery?_retire_of_none _ hn)
      have hend : x.isEnd = true → (m.perform me x).sched.delivery? t = none := by
        intro hend
        obtain ⟨n, o, -, hn, hperform⟩ := perform_end me m hend
        rw [hperform]
        refine hfinish n o ?_
        rcases hn with rfl | rfl <;> exact hnone
      cases x with
      | suspend => exact ((Sched.sameWaits_stop me m.sched).delivery t).trans hnone
      | pause => exact ((Sched.sameWaits_onStatus me _ m.sched).delivery t).trans hnone
      | spawn code =>
          have hget : m.sched.spawn.2.slots.get? t = if t = m.sched.ids.next then
              some ⟨⟨.runnable, false⟩, false, [], none⟩ else m.sched.slots.get? t :=
            Store.get?_set ..
          show m.sched.spawn.2.delivery? t = none
          rw [Sched.delivery?, hget]
          split
          · rfl
          · exact hnone
      | drain =>
          show (m.drain me).sched.delivery? t = none
          unfold drain
          split
          · exact hnone
          · exact delivery?_retire_of_none .over hnone
      | exit | abort => exact hend rfl
      | select | selectHere => cases hselect
      | collect => exact absurd rfl hx
      | _ => cases hroutine

theorem registered_eq_nil (h : (m.perform me x).sched.waiters = m.sched.waiters) :
    m.registered me x = [] := by
  rw [registered, h, List.drop_length]

theorem registered_awaiting {w : Waiter Descriptor} (h : m.perform me x = m.awaiting w) :
    m.registered me x = [w] := by
  have hwaiters : (m.perform me x).sched.waiters = m.sched.waiters ++ [w] := by
    rw [h]
    rfl
  rw [registered, hwaiters, List.drop_left]

/-- A thread without a registration and without an outcome is in no wait. -/
theorem Sound.underway_outside (h : m.Sound) (hwaits : m.sched.waitsOf t = [])
    (hdelivery : m.sched.delivery? t = none) : Underway t m [] := by
  refine .outside (fun hmem => ?_) hwaits hdelivery
  rcases (h.kept_collect hmem).2 with hregistered | hsome
  · exact waitsOf_eq_nil_iff.mp hwaits hregistered
  · exact hsome hdelivery

/-- A thread that is not live is in no wait. -/
theorem Underway.of_dead (h : Underway t m rest) (hm : m.Enrolled)
    (hdead : m.sched.isLive t = false) :
    rest = [] ∧ m.sched.waitsOf t = [] ∧ m.sched.delivery? t = none := by
  have hslot : m.sched.slots.get? t = none := by simpa [Sched.isLive] using hdead
  have hnone : m.sched.delivery? t = none := by rw [Sched.delivery?, hslot]; rfl
  cases h with
  | outside _ hwaits => exact ⟨rfl, hwaits, hnone⟩
  | registered _ hone =>
      obtain ⟨w, hw, hid, -⟩ := (hm.sched.waitsOf_cases t).resolve_left (by simp [hone])
      exact absurd ((hid ▸ hm.sched.live w hw).symm.trans hdead) (by simp)
  | answered _ _ _ _ _ hsome => exact absurd (hnone.symm.trans hsome) (by simp)

/-- Another thread is left alone by the running one. -/
theorem Follows.bystander (h : Follows t τ m) (hm : m.Enrolled) (hne : t ≠ me)
    (hspares : Spares (· ≠ me) m m') (hs' : m'.Sound) (hσ : ∀ e ∈ σ, e.thread = me)
    (hwaits : m'.sched.waitsOf t = m.sched.waitsOf t)
    (hdelivery : m.sched.isLive t = true → m'.sched.delivery? t = m.sched.delivery? t)
    (hnone : m.sched.delivery? t = none → m'.sched.delivery? t = none) :
    Follows t (τ ++ σ) m' := by
  have hnothing : WaitEvent.of t σ = [] := by
    refine List.filter_eq_nil_iff.mpr fun e he => ?_
    simp [hσ e he, Ne.symm hne]
  refine h.stay hnothing fun rest hrest => ?_
  cases hlive : m.sched.isLive t with
  | true =>
      have hstack : m'.stackOf t = m.stackOf t := by
        refine (hspares.stack t hne).resolve_right fun hdead => ?_
        exact Bool.false_ne_true (hdead.1.symm.trans hlive)
      exact hrest.congr (by rw [hstack]; exact ⟨id, id⟩) hwaits (hdelivery hlive)
  | false =>
      obtain ⟨rfl, hnobody, hempty⟩ := hrest.of_dead hm hlive
      exact hs'.underway_outside (hwaits.trans hnobody) (hnone hempty)

/-- A task that neither begins nor ends a wait. -/
theorem Follows.perform_other (h : ∀ t, Follows t τ m) (hm : m.Enrolled) (hs : m.Sound)
    (ht : m.sched.turn = .held me) (hstack : m.stackOf me = x :: ts)
    (hids : ((m.setStack me ts).perform me x).sched.ids.handed ≤ UInt64.size)
    (hselect : x.isSelect = false) (hx : x ≠ .collect) (t : ThreadId) :
    Follows t τ ((m.setStack me ts).perform me x) := by
  have hspares := hs.spares ht hstack hids
  have hs' := hs.perform ht hstack hids
  obtain ⟨hwaiters, hdelivery⟩ :=
    waits_perform (m := m.setStack me ts) hs.coherent hselect hx hids
  have hwaits : ((m.setStack me ts).perform me x).sched.waitsOf t = m.sched.waitsOf t :=
    congrArg (List.filter _) hwaiters
  have hnone : m.sched.delivery? t = none →
      ((m.setStack me ts).perform me x).sched.delivery? t = none :=
    fun hn => delivery?_perform_of_none (m := m.setStack me ts) hselect hx hn
  rw [← List.append_nil τ]
  by_cases hne : t = me
  · subst hne
    refine (h t).stay rfl fun rest hrest => ?_
    by_cases hsuspend : x = .suspend
    · subst hsuspend
      have hpopped : ((m.setStack t ts).perform t .suspend).stackOf t = ts := stackOf_onThread ..
      refine hrest.congr ⟨fun hmem => ?_, fun hcollects => ?_⟩ hwaits
        ((Sched.sameWaits_stop t m.sched).delivery t)
      · rw [hstack]
        exact List.mem_cons_of_mem _ (hpopped ▸ hmem)
      · rw [hpopped]
        rw [hstack] at hcollects
        match ts, hcollects with
        | .collect :: _, _ => rfl
    · have hcollects : collects (m.stackOf t) = false := by
        rw [hstack]
        cases x <;> first | rfl | exact absurd rfl hsuspend | exact absurd rfl hx
      obtain ⟨rfl, hnobody, hempty⟩ := hrest.waitsOf_of_nil hcollects
      exact hs'.underway_outside (hwaits.trans hnobody) (hnone hempty)
  · exact (h t).bystander hm hne hspares hs' nofun hwaits (hdelivery t hne) hnone

/-- A wait that is over at once leaves no trace; any other is registered. -/
theorem Follows.perform_select (h : ∀ t, Follows t τ m) (hm : m.Enrolled) (hs : m.Sound)
    (ht : m.sched.turn = .held me) (hstack : m.stackOf me = x :: ts)
    (hids : ((m.setStack me ts).perform me x).sched.ids.handed ≤ UInt64.size)
    (hselect : x.isSelect = true) (t : ThreadId) :
    Follows t (τ ++ ((m.setStack me ts).registered me x).map .begun)
      ((m.setStack me ts).perform me x) := by
  have hspares := hs.spares ht hstack hids
  have hs' := hs.perform ht hstack hids
  have hcollects : collects (m.stackOf me) = false := by
    rw [hstack]
    cases x <;> first | rfl | cases hselect
  rcases Machine.perform_select me (m.setStack me ts) hselect with hr | ⟨w, rfl, hperform⟩
  · rw [registered_eq_nil hr.sched.waiters]
    have hwaits : ((m.setStack me ts).perform me x).sched.waitsOf t = m.sched.waitsOf t :=
      congrArg (List.filter _) hr.sched.waiters
    have hdelivery : ((m.setStack me ts).perform me x).sched.delivery? t = m.sched.delivery? t :=
      hr.sched.delivery t
    by_cases hne : t = me
    · subst hne
      refine (h t).stay rfl fun rest hrest => ?_
      obtain ⟨rfl, hnobody, hempty⟩ := hrest.waitsOf_of_nil hcollects
      exact hs'.underway_outside (hwaits.trans hnobody) (hdelivery.trans hempty)
    · exact (h t).bystander hm hne hspares hs' nofun hwaits (fun _ => hdelivery) hdelivery.trans
  · rw [registered_awaiting hperform]
    have hdelivery : ((m.setStack w.id ts).perform w.id x).sched.delivery? t =
        if t = w.id then none else m.sched.delivery? t := by
      rw [hperform]
      refine (Sched.delivery?_onSlot w.id t _ _).trans ?_
      split
      · show Option.bind (m.sched.slots.get? w.id) _ = none
        cases m.sched.slots.get? w.id <;> rfl
      · rfl
    have hwaits : ((m.setStack w.id ts).perform w.id x).sched.waitsOf t =
        m.sched.waitsOf t ++ if w.id = t then [w] else [] := by
      rw [hperform]
      refine (List.filter_append ..).trans (congrArg _ ?_)
      split <;> simp [*]
    by_cases hne : t = w.id
    · subst hne
      refine (h w.id).next fun rest hrest => ?_
      obtain ⟨rfl, hnobody, -⟩ := hrest.waitsOf_of_nil hcollects
      have hevents : WaitEvent.of w.id [.begun w] = [.begun w] := by simp [WaitEvent.of, thread]
      rw [List.map_singleton, hevents]
      refine .registered ?_ (by rw [hwaits, hnobody, if_pos rfl]; rfl)
        (hdelivery.trans (if_pos rfl))
      rw [hperform, Machine.awaiting, stackOf_push]
      rfl
    · rw [if_neg hne] at hdelivery
      rw [if_neg (Ne.symm hne), List.append_nil] at hwaits
      exact (h t).bystander hm hne hspares hs' (by simp [thread]) hwaits (fun _ => hdelivery)
        hdelivery.trans

/-- A thread that looks for the outcome of its wait suspends again, still registered, or returns
with the answer. -/
theorem Follows.perform_collect (h : ∀ t, Follows t τ m) (hm : m.Enrolled) (hs : m.Sound)
    (ht : m.sched.turn = .held me) (hstack : m.stackOf me = .collect :: ts)
    (hids : ((m.setStack me ts).perform me .collect).sched.ids.handed ≤ UInt64.size)
    (t : ThreadId) :
    Follows t (τ ++ (m.sched.delivery? me).toList.map (.returned me))
      ((m.setStack me ts).perform me .collect) := by
  have hspares := hs.spares ht hstack hids
  have hs' := hs.perform ht hstack hids
  rcases Machine.perform_collect me (m.setStack me ts) with ⟨hnone, hperform⟩ | ⟨hsome, r, hperform⟩
  · have hempty : m.sched.delivery? me = none := hnone
    rw [hempty]
    by_cases hne : t = me
    · subst hne
      refine (h t).stay rfl fun rest hrest => ?_
      rw [hperform]
      refine hrest.congr ⟨fun _ => ?_, fun _ => ?_⟩ rfl rfl
      · exact hstack ▸ List.mem_cons_self
      · rw [stackOf_push]
        rfl
    · refine (h t).bystander hm hne hspares hs' nofun ?_ (fun _ => ?_) fun hn => ?_
      · rw [hperform]
        rfl
      · rw [hperform]
        rfl
      · rw [hperform]
        exact hn
  · obtain ⟨d, hd⟩ := Option.ne_none_iff_exists'.mp (show m.sched.delivery? me ≠ none from hsome)
    have hdelivery : ((m.setStack me ts).perform me .collect).sched.delivery? t =
        if t = me then none else m.sched.delivery? t := by
      rw [hperform]
      refine (Sched.delivery?_onSlot me t _ _).trans ?_
      split
      · show Option.bind (m.sched.slots.get? me) _ = none
        cases m.sched.slots.get? me <;> rfl
      · rfl
    have hwaits : ((m.setStack me ts).perform me .collect).sched.waitsOf t = m.sched.waitsOf t := by
      rw [hperform]
      rfl
    rw [hd, Option.toList_some, List.map_singleton]
    by_cases hne : t = me
    · subst hne
      obtain ⟨calls, rest, hτ, hcalls, hrest⟩ := h t
      cases hrest with
      | outside hnot => exact absurd (hstack ▸ List.mem_cons_self) hnot
      | registered _ _ hempty => exact absurd (hempty.symm.trans hd) (by simp)
      | @answered w d' system hid hanswer _ hnobody hsome' =>
          obtain rfl : d' = d := Option.some.inj (hsome'.symm.trans hd)
          refine ⟨calls ++ [(w, d')], [], ?_, ?_, ?_⟩
          · rw [of_append, hτ, show WaitEvent.of t [.returned t d'] = [.returned t d'] by
              simp [WaitEvent.of, thread]]
            simp [call, hid]
          · refine List.forall_mem_append.mpr ⟨hcalls, ?_⟩
            simpa using ⟨system, hanswer⟩
          · exact hs'.underway_outside (hwaits.trans hnobody) (hdelivery.trans (if_pos rfl))
    · rw [if_neg hne] at hdelivery
      exact (h t).bystander hm hne hspares hs' (by simp [thread]) hwaits (fun _ => hdelivery)
        hdelivery.trans

theorem handedOut_of_held {s : Sched} {system : PollSystem Descriptor}
    (ht : s.turn = .held me) : s.handedOut system = [] := by
  rw [Sched.handedOut, ht]

/-- The running thread. -/
theorem Follows.perform (h : ∀ t, Follows t τ m) (hm : m.Enrolled) (hs : m.Sound)
    (ht : m.sched.turn = .held me) (hstack : m.stackOf me = x :: ts)
    (hids : ((m.setStack me ts).perform me x).sched.ids.handed ≤ UInt64.size) (t : ThreadId) :
    Follows t (τ ++ m.waitEvents) ((m.setStack me ts).perform me x) := by
  rw [waitEvents, ofTask_of_held ht hstack, handedOut_of_held ht, List.map_nil, List.append_nil]
  by_cases hx : x = .collect
  · subst hx
    exact Follows.perform_collect h hm hs ht hstack hids t
  have hevents : (m.setStack me ts).waitEventsOf me x =
      ((m.setStack me ts).registered me x).map .begun := by
    cases x <;> first | rfl | exact absurd rfl hx
  rw [hevents]
  cases hselect : x.isSelect with
  | true => exact Follows.perform_select h hm hs ht hstack hids hselect t
  | false =>
      have hwaiters := (waits_perform (m := m.setStack me ts) hs.coherent hselect hx hids).1
      rw [registered_eq_nil hwaiters, List.map_nil, List.append_nil]
      exact Follows.perform_other h hm hs ht hstack hids hselect hx t

/-- The outcomes handed out to a thread are the events of its wait. -/
theorem of_map_settled (t : ThreadId) (done : List (ThreadId × Delivery Descriptor)) :
    WaitEvent.of t (done.map fun d => .settled d.1 d.2) =
      (done.filter fun d => d.1 = t).map fun d => .settled d.1 d.2 := by
  rw [WaitEvent.of, List.filter_map]
  rfl

/-- While nobody runs, a poll may answer a wait. -/
theorem Follows.search {s : Sched} (h : Follows t τ m) (hm : m.Enrolled)
    (hturn : ∀ t, m.sched.turn ≠ .held t) (hsearch : m.sched.search m.system = some s) :
    Follows t (τ ++ m.waitEvents) { m with sched := s } := by
  rw [waitEvents, ofTask_of_free hturn, List.nil_append]
  have hevents := of_map_settled t (m.sched.handedOut m.system)
  rcases hm.sched.answered_search hsearch t with ⟨hnobody, hwaits, hdelivery⟩ |
    ⟨w, hone, hserved, hwaits, hdelivery⟩
  · refine h.stay (by rw [hevents, hnobody]; rfl) fun rest hrest => ?_
    exact hrest.congr ⟨id, id⟩ hwaits hdelivery
  · refine h.next fun rest hrest => ?_
    rw [hevents, hserved]
    have hid : w.id = t := by
      have hmem : w ∈ m.sched.waitsOf t := by simp [hone]
      simpa using (List.mem_filter.mp hmem).2
    cases hrest with
    | outside _ hnobody => exact absurd (hnobody.symm.trans hone) (by simp)
    | answered _ _ _ _ hnobody => exact absurd (hnobody.symm.trans hone) (by simp)
    | @registered v hcollects hv hempty =>
        obtain rfl : v = w := by simpa using hv.symm.trans hone
        exact .answered m.system hid rfl hcollects hwaits hdelivery

/-! ## Runs -/

theorem Follows.onSched {s : Sched} (h : Follows t τ m) (hsame : SameWaits m.sched s) :
    Follows t τ { m with sched := s } :=
  h.congr fun _ hrest => hrest.congr ⟨id, id⟩ (hsame.waitsOf t) (hsame.delivery t)

theorem follows_machine (p : Program) (t : ThreadId) : Follows t [] p.machine := by
  have hslot : p.machine.sched.delivery? t = none := by
    show ((Store.empty.set _ _ : Store ThreadId Slot).get? t).bind _ = none
    rw [Store.get?_set]
    split <;> rfl
  refine ⟨[], [], rfl, fun _ hc => absurd hc List.not_mem_nil, .outside (fun hmem => ?_) rfl hslot⟩
  exact Bool.false_ne_true (plain_machine p t _ hmem)

theorem Observed.follows (h : Observed waitEvents p τ m)
    (hids : m.sched.ids.handed ≤ UInt64.size) : ∀ t, Follows t τ m :=
  h.keeps (P := fun τ m => ∀ t, Follows t τ m) hids (follows_machine p)
    (fun _ _ _ _ _ h hr hh ht hstack hids t =>
      Follows.perform h (hr.enrolled hh) (hr.sound hh) ht hstack hids t)
    (fun _ _ _ h hr hh hturn hs t => (h t).search (hr.enrolled hh) hturn hs)
    (fun _ _ _ h hsame _ t => (h t).onSched hsame)
    fun _ _ _ h t => (h t).congr fun _ hrest => hrest.congr ⟨id, id⟩ rfl rfl

/-! ## Calls -/

/-- The wait that a task asks for is for `entries`. -/
def AsksFor (m : Machine) (entries : List (PollEntry Descriptor)) (x : Task) : Prop :=
  (∃ timeout, x = .selectHere entries timeout) ∨
    ∃ named timeout, x = .select named timeout ∧ entries = m.resolve named

theorem waiters_selectEntries (me : ThreadId) (entries : List (PollEntry Descriptor))
    (timeout : Option Span) (m : Machine) :
    (m.selectEntries me entries timeout).sched.waiters = m.sched.waiters ∨
      ∃ deadline, (m.selectEntries me entries timeout).sched.waiters =
        m.sched.waiters ++ [⟨me, entries, deadline⟩] := by
  unfold selectEntries
  dsimp only
  split
  · exact .inl rfl
  · split
    · exact .inl rfl
    · split
      · exact .inr ⟨none, rfl⟩
      · split
        · exact .inr ⟨some _, rfl⟩
        · exact .inl rfl

theorem waiters_pollHere (me : ThreadId) (entries : List (PollEntry Descriptor))
    (timeout : Option Span) (m : Machine) :
    (m.pollHere me entries timeout).sched.waiters = m.sched.waiters :=
  (routine_pollHere entries timeout).sched.waiters

/-- What a call registers are its own entries. -/
theorem asksFor_of_registered {w : Waiter Descriptor} (hselect : x.isSelect = true)
    (hw : w ∈ m.registered me x) : w.id = me ∧ m.AsksFor w.entries x := by
  have hnew : ∀ {n : Machine} {entries : List (PollEntry Descriptor)},
      w ∈ n.sched.waiters.drop m.sched.waiters.length →
      (n.sched.waiters = m.sched.waiters ∨ ∃ deadline, n.sched.waiters =
        m.sched.waiters ++ [⟨me, entries, deadline⟩]) → w.id = me ∧ w.entries = entries := by
    intro n entries hw hwaiters
    rcases hwaiters with he | ⟨deadline, he⟩
    · rw [he, List.drop_length] at hw
      cases hw
    · rw [he, List.drop_left] at hw
      rw [List.mem_singleton.mp hw]
      exact ⟨rfl, rfl⟩
  cases x with
  | selectHere entries timeout =>
      obtain ⟨hid, hentries⟩ := hnew hw (waiters_selectEntries me entries timeout m)
      exact ⟨hid, .inl ⟨timeout, hentries ▸ rfl⟩⟩
  | select named timeout =>
      have hwaiters : (m.select me named timeout).sched.waiters = m.sched.waiters ∨
          ∃ deadline, (m.select me named timeout).sched.waiters =
            m.sched.waiters ++ [⟨me, m.resolve named, deadline⟩] := by
        unfold select
        split
        · exact .inl (waiters_pollHere me _ timeout m)
        · exact waiters_selectEntries me _ timeout m
      obtain ⟨hid, hentries⟩ := hnew hw hwaiters
      exact ⟨hid, .inr ⟨named, timeout, rfl, hentries⟩⟩
  | _ => cases hselect

/-- What is registered in a step is asked for by the task of the running thread. -/
theorem begun_mem_waitEvents {w : Waiter Descriptor} (hs : m.Sound)
    (hstep : m.step = some m') (hids : m'.sched.ids.handed ≤ UInt64.size)
    (hw : .begun w ∈ m.waitEvents) :
    m.sched.turn = .held w.id ∧ ∃ x ts, m.stackOf w.id = x :: ts ∧ m.AsksFor w.entries x := by
  rcases step_cases hstep with ⟨me, x, ts, hturn, hstack, rfl⟩ | ⟨hturn, -⟩
  · rw [waitEvents, ofTask_of_held hturn hstack, handedOut_of_held hturn, List.map_nil,
      List.append_nil] at hw
    by_cases hx : x = .collect
    · subst hx
      simp [waitEventsOf] at hw
    · have hregistered : w ∈ (m.setStack me ts).registered me x := by
        cases x with
        | collect => exact absurd rfl hx
        | _ => simpa [waitEventsOf] using hw
      cases hselect : x.isSelect with
      | true =>
          obtain ⟨rfl, hasks⟩ := asksFor_of_registered hselect hregistered
          exact ⟨hturn, x, ts, hstack, hasks⟩
      | false =>
          have hsame := (waits_perform (m := m.setStack me ts) hs.coherent hselect hx hids).1
          rw [registered_eq_nil hsame] at hregistered
          cases hregistered
  · rw [waitEvents, ofTask_of_free hturn, List.nil_append] at hw
    simp at hw

/-- An outcome that a poll has for a thread is the answer to the wait that it had registered, and
all that happens to that wait in this step. -/
theorem answered_of_settled {d : Delivery Descriptor} (hm : m.Enrolled)
    (hstep : m.step = some m') (hd : .settled t d ∈ m.waitEvents) :
    ∃ w, m.sched.waitsOf t = [w] ∧ d = w.answer m.system ∧
      WaitEvent.of t m.waitEvents = [.settled t d] ∧ m'.sched.waitsOf t = [] ∧
      m'.sched.delivery? t = some d := by
  rcases step_cases hstep with ⟨me, x, ts, hturn, hstack, rfl⟩ | ⟨hturn, s, hsearch, rfl⟩
  · rw [waitEvents, ofTask_of_held hturn hstack, handedOut_of_held hturn, List.map_nil,
      List.append_nil] at hd
    cases x <;> simp [waitEventsOf] at hd
  · rw [waitEvents, ofTask_of_free hturn, List.nil_append] at hd ⊢
    have hmem : (t, d) ∈ (m.sched.handedOut m.system).filter fun e => e.1 = t := by
      simpa using hd
    rcases hm.sched.answered_search hsearch t with ⟨hnobody, -⟩ |
      ⟨w, hone, hserved, hwaits, hdelivery⟩
    · rw [hnobody] at hmem
      cases hmem
    · rw [hserved] at hmem
      obtain rfl : d = w.answer m.system := by simpa using hmem
      exact ⟨w, hone, rfl, by rw [of_map_settled, hserved]; rfl, hwaits, hdelivery⟩

theorem settled_mem_waitEvents {d : Delivery Descriptor} (hm : m.Enrolled)
    (hstep : m.step = some m') (hd : .settled t d ∈ m.waitEvents) :
    ∃ w, m.sched.waitsOf t = [w] ∧ d = w.answer m.system ∧ m'.sched.waitsOf t = [] ∧
      m'.sched.delivery? t = some d := by
  obtain ⟨w, hone, hanswer, -, hwaits, hdelivery⟩ := answered_of_settled hm hstep hd
  exact ⟨w, hone, hanswer, hwaits, hdelivery⟩

/-- The thread looks for the outcome of its wait. -/
theorem step_collect (hturn : m.sched.turn = .held t) (hstack : m.stackOf t = .collect :: ts)
    (hstep : m.step = some m') :
    (m.sched.delivery? t = none → m'.stackOf t = .suspend :: .collect :: ts ∧
      m'.sched.waitsOf t = m.sched.waitsOf t ∧ m'.sched.delivery? t = none) ∧
    (∀ d, m.sched.delivery? t = some d → m'.stackOf t = ts ∧ m'.replyOf t = waitReply d ∧
      m'.sched.delivery? t = none) := by
  obtain rfl := eq_perform_of_step hturn hstack hstep
  have hts : (m.setStack t ts).stackOf t = ts := stackOf_onThread ..
  refine ⟨fun hnone => ?_, fun d hd => ?_⟩
  · have hperform : (m.setStack t ts).perform t .collect =
        (m.setStack t ts).push t [.suspend, .collect] := by
      show (m.setStack t ts).collect t = _
      unfold collect
      rw [show (m.setStack t ts).sched.delivery? t = none from hnone]
    rw [hperform, stackOf_push, hts]
    exact ⟨rfl, rfl, hnone⟩
  · have hperform : (m.setStack t ts).perform t .collect =
        ((m.setStack t ts).onSched (Sched.takeDelivery t)).answer t (waitReply d) := by
      show (m.setStack t ts).collect t = _
      unfold collect
      rw [show (m.setStack t ts).sched.delivery? t = some d from hd]
      cases d <;> rfl
    rw [hperform, stackOf_answer, replyOf_answer]
    refine ⟨hts, rfl, ?_⟩
    refine (Sched.delivery?_onSlot t t _ _).trans ((if_pos rfl).trans ?_)
    show Option.bind (m.sched.slots.get? t) _ = none
    cases m.sched.slots.get? t <;> rfl

theorem Underway.inside (h : Underway t m rest) (hmem : .collect ∈ m.stackOf t) :
    (∃ w, m.sched.waitsOf t = [w]) ∧ m.sched.delivery? t = none ∨
      m.sched.waitsOf t = [] ∧ ∃ d, m.sched.delivery? t = some d := by
  cases h with
  | outside hnot => exact absurd hmem hnot
  | registered _ hone hempty => exact .inl ⟨⟨_, hone⟩, hempty⟩
  | answered _ _ _ _ hnone hsome => exact .inr ⟨hnone, _, hsome⟩

theorem Underway.outside_of_not_mem (h : Underway t m rest) (hnot : .collect ∉ m.stackOf t) :
    m.sched.waitsOf t = [] ∧ m.sched.delivery? t = none := by
  cases h with
  | outside _ hnone hempty => exact ⟨hnone, hempty⟩
  | registered hcollects => exact absurd (mem_collect_of_collects hcollects) hnot
  | answered _ _ _ hcollects => exact absurd (mem_collect_of_collects hcollects) hnot

/-- Waits for descriptors are conserved, at any moment of any run in which no giver has panicked,
and for every thread. A thread in a wait has one registration and no outcome, or no registration and
an outcome; any other thread has neither. No wakeup changes that. A thread that looks without having
an outcome suspends again with its registration; with an outcome the wait returns just that. A
registration is for the entries of the call, and an outcome is the answer to these. So the history
of the thread is a sequence of whole calls, each with the answer to its own entries, and of what is
under way. -/
theorem Observed.waits_conserved (h : Observed waitEvents p τ m)
    (hids : m.sched.ids.history.Nodup) (t : ThreadId) :
    (.collect ∈ m.stackOf t →
      (∃ w, m.sched.waitsOf t = [w]) ∧ m.sched.delivery? t = none ∨
        m.sched.waitsOf t = [] ∧ ∃ d, m.sched.delivery? t = some d) ∧
    (.collect ∉ m.stackOf t → m.sched.waitsOf t = [] ∧ m.sched.delivery? t = none) ∧
    (∀ id, (m.sched.wakeup id).waitsOf t = m.sched.waitsOf t ∧
      (m.sched.wakeup id).delivery? t = m.sched.delivery? t) ∧
    (∀ m' ts, m.sched.turn = .held t → m.stackOf t = .collect :: ts → m.step = some m' →
      (m.sched.delivery? t = none → m'.stackOf t = .suspend :: .collect :: ts ∧
        m'.sched.waitsOf t = m.sched.waitsOf t ∧ m'.sched.delivery? t = none) ∧
      ∀ d, m.sched.delivery? t = some d → m'.stackOf t = ts ∧ m'.replyOf t = waitReply d ∧
        m'.sched.delivery? t = none) ∧
    (∀ m', m.step = some m' → m'.sched.ids.history.Nodup →
      (∀ w, w.id = t → .begun w ∈ m.waitEvents → m.sched.turn = .held t ∧
        ∃ x ts, m.stackOf t = x :: ts ∧ m.AsksFor w.entries x) ∧
      ∀ d, .settled t d ∈ m.waitEvents → ∃ w, m.sched.waitsOf t = [w] ∧
        d = w.answer m.system ∧ m'.sched.waitsOf t = [] ∧ m'.sched.delivery? t = some d) ∧
    ∃ (calls : List (Waiter Descriptor × Delivery Descriptor)) (rest : List WaitEvent),
      WaitEvent.of t τ = calls.flatMap (fun c => call c.1 c.2) ++ rest ∧
      (∀ c ∈ calls, ∃ system, c.2 = c.1.answer system) ∧ Underway t m rest := by
  have hhanded := IdAllocator.nodup_history_iff.mp hids
  have henrolled := h.reaches.enrolled hhanded
  obtain ⟨calls, rest, hτ, hcalls, hrest⟩ := h.follows hhanded t
  refine ⟨hrest.inside, hrest.outside_of_not_mem, fun id => ?_, fun m' ts => step_collect,
    fun m' hstep hids' => ⟨?_, fun d => settled_mem_waitEvents henrolled hstep⟩,
    calls, rest, hτ, hcalls, hrest⟩
  · have hsame := Sched.sameWaits_wakeup id m.sched
    exact ⟨hsame.waitsOf t, hsame.delivery t⟩
  · rintro w rfl hw
    exact begun_mem_waitEvents (h.reaches.sound hhanded) hstep
      (IdAllocator.nodup_history_iff.mp hids') hw

/-- The second thread waits for a pipe. The main thread wakes it in vain, and then writes to the
pipe. -/
def patientReader : Program :=
  { Program.blank with code :=
      [[.spawn 1, .yield, .wakeup 2, .yield, .transfer (.write 0 [65]), .join 2],
        [.waitFor 0 .reader]] }

/-- After thirty steps the second thread has been woken and waits again; after fifty it has
returned. -/
theorem waits_conserved_patientReader :
    (patientReader.final 30).sched.ids.history.Nodup ∧
      (patientReader.final 50).sched.ids.history.Nodup ∧
      (∃ w, (patientReader.final 30).sched.waitsOf 2 = [w]) ∧
      (patientReader.final 30).sched.delivery? 2 = none ∧
      (patientReader.final 50).sched.waitsOf 2 = [] ∧
      (patientReader.final 50).sched.delivery? 2 = none := by
  have hids : (patientReader.final 30).sched.ids.history.Nodup := by decide
  have hids' : (patientReader.final 50).sched.ids.history.Nodup := by decide
  have hmem : Task.collect ∈ (patientReader.final 30).stackOf 2 :=
    mem_collect_of_collects (by decide)
  have hnot : Task.collect ∉ (patientReader.final 50).stackOf 2 := fun hmem =>
    absurd (List.any_eq_true.mpr ⟨_, hmem, rfl⟩ :
      ((patientReader.final 50).stackOf 2).any (fun x => x matches .collect) = true) (by decide)
  obtain ⟨hinside, -⟩ := (observed_final waitEvents 30 patientReader).waits_conserved hids 2
  obtain ⟨-, houtside, -⟩ := (observed_final waitEvents 50 patientReader).waits_conserved hids' 2
  have hempty : (patientReader.final 30).sched.delivery? 2 = none :=
    Option.isNone_iff_eq_none.mp (by decide)
  refine ⟨hids, hids', ?_, hempty, houtside hnot⟩
  exact ((hinside hmem).resolve_right fun ⟨_, d, hd⟩ => by simp [hempty] at hd).1

end Machine

end Baton
