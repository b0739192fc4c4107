import Baton.Proofs.Program.Queued

/-!
# Machine: a wake picks those who sleep now

An observer of one rendezvous notes who registers, who is picked by a wake, and whose sleep resumes.
The list of sleepers is always what is open of this history: the registrations after which nothing
has happened to their threads. A picked thread still stands at the stop inside its sleep, and stays
there, awake, until it gets the turn. A sleep goes through a few points (`Asleep`), and it returns
from the last ones only to the owner of its mutex.

## Implementation notes

The sleeper does not own its mutex between the release and the request of its own sleep, which is
why that request is not refused. Only the release makes this known, so the points after it carry it.
-/

namespace Baton

/-- Something that happened in a rendezvous. -/
inductive RendezEvent where
  /-- The sleep of the thread registered. -/
  | enlisted (t : ThreadId)
  /-- A wake picked the thread. -/
  | picked (t : ThreadId)
  /-- The sleep of the thread left its stop. -/
  | resumed (t : ThreadId)
  deriving DecidableEq

namespace RendezEvent

/-- The thread that an event is about. -/
def thread : RendezEvent → ThreadId
  | enlisted t | picked t | resumed t => t

/-- The threads to which nothing has happened after they registered, in the order of
registration. -/
def openSleeps : List RendezEvent → List ThreadId
  | [] => []
  | enlisted t :: es => if t ∈ es.map thread then openSleeps es else t :: openSleeps es
  | _ :: es => openSleeps es

theorem openSleeps_append (es es' : List RendezEvent) : openSleeps (es ++ es') =
    (openSleeps es).filter (· ∉ es'.map thread) ++ openSleeps es' := by
  induction es with
  | nil => rfl
  | cons e es ih =>
      cases e with
      | enlisted t =>
          simp only [List.cons_append, openSleeps, List.map_append, List.mem_append]
          by_cases ht : t ∈ es.map thread
          · rw [if_pos ht, if_pos (.inl ht), ih]
          · by_cases ht' : t ∈ es'.map thread
            · rw [if_neg ht, if_pos (.inr ht'), ih, List.filter_cons_of_neg (by simpa using ht')]
            · rw [if_neg ht, if_neg (not_or.mpr ⟨ht, ht'⟩), ih,
                List.filter_cons_of_pos (by simpa using ht'), List.cons_append]
      | picked t => exact ih
      | resumed t => exact ih

theorem openSleeps_picked (ts : List ThreadId) : openSleeps (ts.map picked) = [] := by
  induction ts with
  | nil => rfl
  | cons t ts ih => exact ih

theorem map_thread_picked (ts : List ThreadId) : (ts.map picked).map thread = ts := by
  rw [List.map_map]
  exact List.map_id ts

end RendezEvent

open RendezEvent

namespace Machine

variable {p : Program} {me t : ThreadId} {m m' n : Machine} {ts us : List Task} {x : Task}
  {name : MutexName} {r : RendezName} {τ : List RendezEvent}

/-! ## The list of sleepers -/

/-- What happens in a rendezvous when `me` carries out a task. A thread that is taken out of the
list by anything but its own resumption has been picked. -/
def rendezEvents (r : RendezName) (me : ThreadId) (m : Machine) (x : Task) : List RendezEvent :=
  match x with
  | .sleepOn k _ => if k = r then [enlisted me] else []
  | .leave k => if k = r then [resumed me] else []
  | _ => ((m.rendezvous.get r).sleepers.filter
      (· ∉ ((m.perform me x).rendezvous.get r).sleepers)).map picked

/-- What is picked is no more than what disappears from the list. -/
theorem picked_mem_rendezEvents (h : picked t ∈ m.rendezEvents r me x) :
    t ∈ (m.rendezvous.get r).sleepers ∧ t ∉ ((m.perform me x).rendezvous.get r).sleepers ∧
      (∀ k name, x ≠ .sleepOn k name) ∧ ∀ k, x ≠ .leave k := by
  unfold rendezEvents at h
  split at h
  · split at h <;> simp at h
  · split at h <;> simp at h
  · rename_i hsleep hleave
    obtain ⟨u, hu, he⟩ := List.mem_map.mp h
    obtain rfl := picked.inj he
    obtain ⟨hmem, hnot⟩ := List.mem_filter.mp hu
    exact ⟨hmem, by simpa using hnot, hsleep, hleave⟩

/-- What a list without repetition has in common with a sublist of it is that sublist. -/
theorem filter_mem_of_sublist {l l' : List ThreadId} (h : l'.Sublist l) (hnodup : l.Nodup) :
    l.filter (· ∈ l') = l' := by
  induction h with
  | slnil => rfl
  | cons a h ih =>
      obtain ⟨hnot, hnodup⟩ := List.nodup_cons.mp hnodup
      rw [List.filter_cons_of_neg (by simpa using fun hmem => hnot (h.subset hmem)), ih hnodup]
  | cons_cons a h ih =>
      obtain ⟨hnot, hnodup⟩ := List.nodup_cons.mp hnodup
      rw [List.filter_cons_of_pos (by simp)]
      congr 1
      refine (List.filter_congr fun b hb => ?_).trans (ih hnodup)
      have hne : b ≠ a := fun he => hnot (he ▸ hb)
      simp [hne]

/-- Whatever the task, the list afterwards is what the events leave of it. -/
theorem sleepers_perform (hnodup : (m.rendezvous.get r).sleepers.Nodup)
    (hnot : ∀ name, x = .sleepOn r name → me ∉ (m.rendezvous.get r).sleepers) :
    ((m.perform me x).rendezvous.get r).sleepers =
      (m.rendezvous.get r).sleepers.filter (· ∉ (m.rendezEvents r me x).map thread) ++
        openSleeps (m.rendezEvents r me x) := by
  have hpicks : (∀ k name, x ≠ .sleepOn k name) → (∀ k, x ≠ .leave k) →
      ((m.perform me x).rendezvous.get r).sleepers.Sublist (m.rendezvous.get r).sleepers →
      ((m.perform me x).rendezvous.get r).sleepers =
        (m.rendezvous.get r).sleepers.filter (· ∉ (m.rendezEvents r me x).map thread) ++
          openSleeps (m.rendezEvents r me x) := by
    intro hsleep hleave hsub
    have hevents : m.rendezEvents r me x = ((m.rendezvous.get r).sleepers.filter
        (· ∉ ((m.perform me x).rendezvous.get r).sleepers)).map picked := by
      unfold rendezEvents
      split
      · exact absurd rfl (hsleep _ _)
      · exact absurd rfl (hleave _)
      · rfl
    rw [hevents, map_thread_picked, openSleeps_picked, List.append_nil]
    refine (filter_mem_of_sublist hsub hnodup).symm.trans (List.filter_congr fun t ht => ?_)
    simp [ht]
  by_cases hsleep : ∃ k name, x = .sleepOn k name
  · obtain ⟨k, name, rfl⟩ := hsleep
    have hget : (m.perform me (.sleepOn k name)).rendezvous.get r =
        if r = k then (m.rendezvous.get k).enlist me else m.rendezvous.get r := Store.get_set ..
    by_cases hk : r = k
    · subst hk
      have hkeep : ∀ t ∈ (m.rendezvous.get r).sleepers, t ≠ me := fun t ht he =>
        hnot name rfl (he ▸ ht)
      rw [hget, if_pos rfl, rendezEvents, if_pos rfl, List.filter_eq_self.mpr]
      · rfl
      · simpa [thread] using hkeep
    · rw [hget, if_neg hk, rendezEvents, if_neg (Ne.symm hk)]
      simp [openSleeps]
  by_cases hleave : ∃ k, x = .leave k
  · obtain ⟨k, rfl⟩ := hleave
    have hget : (m.perform me (.leave k)).rendezvous.get r =
        if r = k then (m.rendezvous.get k).leave me else m.rendezvous.get r := Store.get_set ..
    by_cases hk : r = k
    · subst hk
      rw [hget, if_pos rfl, rendezEvents, if_pos rfl]
      simp [openSleeps, Rendez.leave, thread]
    · rw [hget, if_neg hk, rendezEvents, if_neg (Ne.symm hk)]
      simp [openSleeps]
  have hsleep : ∀ k name, x ≠ .sleepOn k name := fun k name he => hsleep ⟨k, name, he⟩
  have hleave : ∀ k, x ≠ .leave k := fun k he => hleave ⟨k, he⟩
  refine hpicks hsleep hleave ?_
  rcases rendez_perform me x m r with ⟨⟨name, he⟩, -⟩ | ⟨he, -⟩ | ⟨-, he⟩ | ⟨-, he⟩ | he
  · exact absurd he (hsleep r name)
  · exact absurd he (hleave r)
  · rw [he]
    exact List.tail_sublist _
  · rw [he]
    exact List.nil_sublist _
  · rw [he]

theorem Observed.sleepers (h : Observed (ofTask (rendezEvents r)) p τ m)
    (hids : m.sched.ids.handed ≤ UInt64.size) : (m.rendezvous.get r).sleepers = openSleeps τ := by
  refine h.keeps (P := fun τ m => (m.rendezvous.get r).sleepers = openSleeps τ) hids rfl ?_ ?_
    (fun _ _ _ hm _ _ => hm) fun _ _ _ hm => hm
  · intro τ m me x ts hm hr hh hturn hstack hids'
    have hq := hr.sleepQueues hh
    rw [ofTask_of_held hturn hstack, openSleeps_append, ← hm]
    refine sleepers_perform (m := m.setStack me ts) (hq.nodup r) ?_
    rintro name rfl
    exact hq.not_sleeping (hr.sound hh) hstack r
  · intro τ m s hm _ _ hturn _
    rw [ofTask_of_free hturn, List.append_nil]
    exact hm

/-! ## Who is picked -/

/-- A thread that sleeps has begun its sleep and not resumed from it. -/
theorem Reaches.mem_sleepers (h : Reaches p.machine m) (hids : m.sched.ids.handed ≤ UInt64.size)
    (ht : t ∈ (m.rendezvous.get r).sleepers) : ∃ name us,
      m.stackOf t = .release name :: .suspend :: .leave r :: .acquire name :: us ∨
      m.stackOf t = .suspend :: .leave r :: .acquire name :: us ∨
      m.stackOf t = .leave r :: .acquire name :: us := by
  obtain ⟨name, us, he | he | ⟨back, he⟩⟩ :=
    ((h.sound hids).onCourse t).leave_of_mem ((h.sleepQueues hids).queued r t ht)
  · exact ⟨name, us, .inr (.inr he)⟩
  · exact ⟨name, us, .inr (.inl he)⟩
  · obtain rfl : name = back := by
      have hdozing := h.dozing hids t
      rw [he] at hdozing
      exact hdozing
    exact ⟨name, us, .inl he⟩

/-- A wake picks the longest sleeper and nobody else. -/
theorem signal_picks (hnodup : (m.rendezvous.get r).sleepers.Nodup) :
    m.rendezEvents r me (.signal r) = (m.rendezvous.get r).sleepers.head?.toList.map picked ∧
      ((m.perform me (.signal r)).rendezvous.get r).sleepers =
        (m.rendezvous.get r).sleepers.tail ∧
      (m.perform me (.signal r)).sched =
        m.sched.wakeAll (m.rendezvous.get r).sleepers.head?.toList := by
  have hlist : ((m.perform me (.signal r)).rendezvous.get r).sleepers =
      (m.rendezvous.get r).sleepers.tail := by
    rw [show m.perform me (.signal r) = m.signal r from rfl, rendezvous_signal, Store.get_set,
      if_pos rfl]
    rfl
  refine ⟨?_, hlist, ?_⟩
  · unfold rendezEvents
    rw [hlist]
    cases hsleepers : (m.rendezvous.get r).sleepers with
    | nil => rfl
    | cons u us =>
        obtain ⟨hnot, -⟩ := List.nodup_cons.mp (hsleepers ▸ hnodup)
        simp +contextual [hnot]
  · show (m.signal r).sched = _
    unfold signal Rendez.pick
    cases (m.rendezvous.get r).sleepers <;> rfl

theorem broadcast_picks :
    m.rendezEvents r me (.broadcast r) = (m.rendezvous.get r).sleepers.map picked ∧
      ((m.perform me (.broadcast r)).rendezvous.get r).sleepers = [] ∧
      (m.perform me (.broadcast r)).sched = m.sched.wakeAll (m.rendezvous.get r).sleepers := by
  have hlist : ((m.perform me (.broadcast r)).rendezvous.get r).sleepers = [] :=
    congrArg Rendez.sleepers ((Store.get_set ..).trans (if_pos rfl))
  refine ⟨?_, hlist, rfl⟩
  unfold rendezEvents
  rw [hlist]
  simp

/-- Nothing but a wake picks anybody. -/
theorem wake_of_picked (hpicked : picked t ∈ m.rendezEvents r me x) :
    x = .signal r ∨ m.emptied me x = some r := by
  obtain ⟨hmem, hgone, hsleep, hleave⟩ := picked_mem_rendezEvents hpicked
  rcases rendez_perform me x m r with ⟨⟨name, he⟩, -⟩ | ⟨he, -⟩ | ⟨he, -⟩ | ⟨he, -⟩ | he
  · exact absurd he (hsleep r name)
  · exact absurd he (hleave r)
  · exact .inl he
  · exact .inr he
  · exact absurd (he ▸ hmem) hgone

/-- A thread that has just been picked is not the running one: it stands at the stop of its sleep,
awake. -/
theorem stackOf_of_picked (hr : Reaches p.machine m) (hids : m.sched.ids.handed ≤ UInt64.size)
    (hturn : m.sched.turn = .held me) (hstack : m.stackOf me = x :: ts)
    (hids' : ((m.setStack me ts).perform me x).sched.ids.handed ≤ UInt64.size)
    (hpicked : picked t ∈ (m.setStack me ts).rendezEvents r me x) :
    ∃ name us, m.stackOf t = .leave r :: .acquire name :: us ∧
      ((m.setStack me ts).perform me x).stackOf t = .leave r :: .acquire name :: us ∧
      ((m.setStack me ts).perform me x).sched.isStopped t = false := by
  have hs := hr.sound hids
  obtain ⟨hmem, hgone, hsleep, hleave⟩ := picked_mem_rendezEvents hpicked
  have hreturns := (hr.sleepQueues hids).queued r t hmem
  have hne : t ≠ me := by
    rintro rfl
    obtain ⟨back, us, he⟩ := (hs.onCourse t).leave_of_mem hreturns
    rw [hstack] at he
    rcases he with he | he | ⟨name, he⟩ <;> obtain ⟨rfl, -⟩ := List.cons.inj he
    · exact hleave r rfl
    · exact hgone hmem
    · refine hgone ?_
      rw [show (m.setStack t ts).perform t (.release name) = (m.setStack t ts).release t name from
        rfl, (release_frame t name _).1]
      exact hmem
  have hparked := hs.parked t fun he => hne (Turn.held.inj (he.symm.trans hturn))
  obtain ⟨name, us, he⟩ := hparked.leave_of_mem hreturns
  have hspares := hs.spares hturn hstack hids'
  refine ⟨name, us, he, ?_, ?_⟩
  · exact ((hr.stackKept hids hturn hstack hids' hne).eq_of_mem rfl hreturns).trans he
  · by_contra hstop
    exact hgone (hspares.rendez t hne (by simpa using hstop) r hmem)

/-- A sleeper that is awake stays where it is until it gets the turn. -/
theorem Along.awake (h : Along (fun n => n.sched.turn ≠ .held t) m n) (hr : Reaches p.machine m)
    (hids : n.sched.ids.handed ≤ UInt64.size) (hstack : m.stackOf t = .leave r :: us)
    (hstop : m.sched.isStopped t = false) :
    n.stackOf t = .leave r :: us ∧ n.sched.isStopped t = false := by
  refine h.keeps (Q := fun n => n.stackOf t = .leave r :: us ∧ n.sched.isStopped t = false) hr hids
    ⟨hstack, hstop⟩ ?_ ?_ fun _ _ hn => hn
  · intro n me x ts ⟨hus, hawake⟩ hturn' hr hh hturn hstack hids'
    have hne : t ≠ me := fun he => hturn' (he ▸ hturn)
    refine ⟨((hr.stackKept hh hturn hstack hids' hne).eq_of_mem (y := .leave r) rfl
      (by simp [hus])).trans hus, ?_⟩
    by_contra hstop
    have hwas := ((hr.sound hh).spares hturn hstack hids').stopped t hne (by simpa using hstop)
    exact Bool.false_ne_true (hawake.symm.trans hwas)
  · intro n s ⟨hus, hawake⟩ hs
    refine ⟨hus, ?_⟩
    by_contra hstop
    exact Bool.false_ne_true (hawake.symm.trans (hs.stopped t trivial (by simpa using hstop)))

/-! ## What a sleep goes through -/

/-- The points of a sleep of `t` with `us` below it. -/
inductive Asleep (t : ThreadId) (r : RendezName) (name : MutexName) (us : List Task)
    (m : Machine) : List Task → Prop where
  | registered : Asleep t r name us m
      (.release name :: .suspend :: .leave r :: .acquire name :: us)
  | suspending : (m.mutexes.get name).owner ≠ some t →
      Asleep t r name us m (.suspend :: .leave r :: .acquire name :: us)
  | suspended : (m.mutexes.get name).owner ≠ some t →
      Asleep t r name us m (.leave r :: .acquire name :: us)
  | returning : (m.mutexes.get name).owner ≠ some t →
      Asleep t r name us m (.acquire name :: us)
  | queued : Asleep t r name us m (.suspend :: .awaitOwner name :: us)
  | waiting : Asleep t r name us m (.awaitOwner name :: us)

/-- The sleep of `t` is at one of its points, or the thread goes on below it as the owner of the
mutex. -/
inductive Sleeping (t : ThreadId) (r : RendezName) (name : MutexName) (us : List Task)
    (m : Machine) : Prop where
  | inside : Asleep t r name us m (m.stackOf t) → Sleeping t r name us m
  | back : m.stackOf t = us → (m.mutexes.get name).owner = some t → Sleeping t r name us m

/-- What other threads do leaves a sleep at its point. -/
theorem Asleep.mono (h : Asleep t r name us m ts)
    (howner : .awaitOwner name ∉ ts → (m'.mutexes.get name).owner = some t →
      (m.mutexes.get name).owner = some t) (hus : .awaitOwner name ∉ us) :
    Asleep t r name us m' ts := by
  cases h with
  | registered => exact .registered
  | suspending ho => exact .suspending fun he => ho (howner (by simp [hus]) he)
  | suspended ho => exact .suspended fun he => ho (howner (by simp [hus]) he)
  | returning ho => exact .returning fun he => ho (howner (by simp [hus]) he)
  | queued => exact .queued
  | waiting => exact .waiting

/-- The sleeper itself goes on to the next point, or back as the owner. -/
theorem Asleep.perform (h : Asleep me r name us m (x :: ts)) (hx : (m.mutexes.get name).Regular)
    (hts : m.stackOf me = ts) : Sleeping me r name us (m.perform me x) := by
  generalize hall : x :: ts = all at h
  cases h with
  | registered =>
      obtain ⟨rfl, rfl⟩ := List.cons.inj hall
      refine .inside ?_
      rw [show m.perform me (.release name) = m.release me name from rfl, stackOf_release, hts]
      exact .suspending (owner_ne_of_release hx)
  | suspending ho =>
      obtain ⟨rfl, rfl⟩ := List.cons.inj hall
      refine .inside ?_
      show Asleep me r name us _ (m.stackOf me)
      rw [hts]
      exact .suspended ho
  | suspended ho =>
      obtain ⟨rfl, rfl⟩ := List.cons.inj hall
      refine .inside ?_
      show Asleep me r name us _ (m.stackOf me)
      rw [hts]
      exact .returning ho
  | returning ho =>
      obtain ⟨rfl, rfl⟩ := List.cons.inj hall
      rcases acquire_cases me name m with ⟨hme, -⟩ | ⟨-, he, hstack⟩ | ⟨-, -, -, hstack⟩
      · exact absurd hme ho
      · exact .back (hstack.trans hts) (congrArg Mutex.owner he)
      · refine .inside ?_
        show Asleep me r name ts _ ((m.acquire me name).stackOf me)
        rw [hstack, hts]
        exact .queued
  | queued =>
      obtain ⟨rfl, rfl⟩ := List.cons.inj hall
      refine .inside ?_
      show Asleep me r name us _ (m.stackOf me)
      rw [hts]
      exact .waiting
  | waiting =>
      obtain ⟨rfl, rfl⟩ := List.cons.inj hall
      rcases awaitOwner_cases me name m with ⟨ho, he⟩ | ⟨-, hstack⟩
      · refine .back ((congrArg (stackOf me) he).trans hts) ?_
        exact (congrArg (fun k => (k.mutexes.get name).owner) he).trans ho
      · refine .inside ?_
        show Asleep me r name ts _ ((m.awaitOwner me name).stackOf me)
        rw [hstack, hts]
        exact .queued

/-- A sleeper stays in the scheduler. -/
theorem Asleep.isLive (h : Asleep me r name us m (x :: ts)) (hlive : m.sched.isLive me = true) :
    (m.perform me x).sched.isLive me = true := by
  have hgentle : x.changesRun = false → (m.perform me x).sched.isLive me = true := fun hx =>
    ((perform_gentle hx).1.quiet.isLive me).trans hlive
  have hsuspend : (m.perform me .suspend).sched.isLive me = true :=
    ((Sched.sameWaits_stop me m.sched).live me).trans hlive
  generalize hall : x :: ts = all at h
  cases h <;> obtain ⟨rfl, rfl⟩ := List.cons.inj hall
  · exact hgentle rfl
  · exact hsuspend
  · exact hgentle rfl
  · exact hgentle rfl
  · exact hsuspend
  · exact hgentle rfl

theorem Sleeping.mono (h : Sleeping t r name us m) (hus : .awaitOwner name ∉ us)
    (hstack : m'.stackOf t = m.stackOf t) (hmutexes : m'.mutexes = m.mutexes) :
    Sleeping t r name us m' := by
  cases h with
  | inside h => exact .inside (hstack ▸ h.mono (fun _ ho => hmutexes ▸ ho) hus)
  | back hback ho => exact .back (hstack.trans hback) (hmutexes ▸ ho)

/-- Until it returns a sleep is at one of its points, and it returns to the owner of the mutex. -/
theorem Along.sleeping (h : Along (fun n => n.stackOf t ≠ us) m n) (hr : Reaches p.machine m)
    (hids : n.sched.ids.handed ≤ UInt64.size) (hus : .awaitOwner name ∉ us)
    (hsleep : Sleeping t r name us m) (hlive : m.sched.isLive t = true) :
    Sleeping t r name us n := by
  refine (h.keeps (Q := fun n => Sleeping t r name us n ∧
    (n.stackOf t ≠ us → n.sched.isLive t = true)) hr hids ⟨hsleep, fun _ => hlive⟩ ?_ ?_ ?_).1
  · intro n me x ts ⟨hsleep, hlive⟩ haway hr hh hturn hstack hids'
    have hinside : Asleep t r name us n (n.stackOf t) := by
      cases hsleep with
      | inside h => exact h
      | back hback => exact absurd hback haway
    by_cases hne : t = me
    · subst hne
      rw [hstack] at hinside
      have hinside' : Asleep t r name us (n.setStack t ts) (x :: ts) :=
        hinside.mono (fun _ ho => ho) hus
      exact ⟨hinside'.perform ((hr.mutexQueues hh).regular name) (stackOf_onThread ..),
        fun _ => hinside'.isLive (hlive haway)⟩
    · have hspares := (hr.sound hh).spares hturn hstack hids'
      have hstays := (hspares.stack t hne).resolve_right fun ⟨hdead, _⟩ =>
        Bool.false_ne_true (hdead.symm.trans (hlive haway))
      refine ⟨.inside (hstays ▸ hinside.mono (fun hnot ho => ?_) hus),
        fun _ => hspares.live t hne (hlive haway)⟩
      exact (owner_of_perform (m := n.setStack me ts) hne ho).resolve_right
        fun hmem => hnot ((hr.mutexQueues hh).queued name t hmem)
  · intro n s ⟨hsleep, hlive⟩ hs
    exact ⟨hsleep.mono hus rfl rfl, fun haway => hs.live t (hlive haway)⟩
  · intro n e ⟨hsleep, hlive⟩
    exact ⟨hsleep.mono hus rfl rfl, hlive⟩

/-- A sleep begins as the last in the list. -/
theorem sleepOn_begins (hr : Reaches p.machine m) (hids : m.sched.ids.handed ≤ UInt64.size)
    (hturn : m.sched.turn = .held me) (hstack : m.stackOf me = .sleepOn r name :: us) :
    me ∉ (m.rendezvous.get r).sleepers ∧
      (((m.setStack me us).perform me (.sleepOn r name)).rendezvous.get r).sleepers =
        (m.rendezvous.get r).sleepers ++ [me] ∧
      Sleeping me r name us ((m.setStack me us).perform me (.sleepOn r name)) ∧
      ((m.setStack me us).perform me (.sleepOn r name)).sched.isLive me = true ∧
      .awaitOwner name ∉ us := by
  have hs := hr.sound hids
  have hts : (m.setStack me us).stackOf me = us := stackOf_onThread ..
  refine ⟨(hr.sleepQueues hids).not_sleeping hs hstack r, ?_, .inside ?_, ?_, fun hmem => ?_⟩
  · exact congrArg Rendez.sleepers ((Store.get_set ..).trans (if_pos rfl))
  · have hperform : ((m.setStack me us).perform me (.sleepOn r name)).stackOf me =
        [.release name, .suspend, .leave r, .acquire name] ++ (m.setStack me us).stackOf me :=
      stackOf_push me _ ((m.setStack me us).setRendez r _)
    rw [hperform, hts]
    exact .registered
  · exact Sched.isLive_of_isRunning (hs.coherent.isRunning_of_held hturn)
  · have hcourse := hstack ▸ hs.onCourse me
    obtain ⟨vs, he | he⟩ := hcourse.awaitOwner_of_mem (List.mem_cons_of_mem _ hmem) <;> simp at he

/-- Wakes go to the present sleepers, at any moment of any run in which no giver has panicked. The
list of a rendezvous holds nobody twice; it holds those to whom nothing has happened since their
sleep registered, in the order of registration, and all of them are inside that sleep. A wake takes
the first one out of a list that is not empty and wakes it and nobody else, and a wake of all takes
out all. Whoever is picked, also by a lock that is handed over, is at the stop inside its sleep, and
it stays there, live and awake, until it has the turn. A sleep begins at the end of the list, and
along any run it returns only as the owner of the mutex that it was given. -/
theorem Observed.wakes_present_sleepers (h : Observed (ofTask (rendezEvents r)) p τ m)
    (hids : m.sched.ids.history.Nodup) :
    (m.rendezvous.get r).sleepers.Nodup ∧
    (m.rendezvous.get r).sleepers = openSleeps τ ∧
    (∀ t ∈ (m.rendezvous.get r).sleepers, ∃ name us,
      m.stackOf t = .release name :: .suspend :: .leave r :: .acquire name :: us ∨
      m.stackOf t = .suspend :: .leave r :: .acquire name :: us ∨
      m.stackOf t = .leave r :: .acquire name :: us) ∧
    ∀ me x ts m', m.sched.turn = .held me → m.stackOf me = x :: ts → m.step = some m' →
      (x = .signal r → m.ofTask (rendezEvents r) =
          (m.rendezvous.get r).sleepers.head?.toList.map picked ∧
        (m'.rendezvous.get r).sleepers = (m.rendezvous.get r).sleepers.tail ∧
        m'.sched = m.sched.wakeAll (m.rendezvous.get r).sleepers.head?.toList) ∧
      (x = .broadcast r → m.ofTask (rendezEvents r) =
          (m.rendezvous.get r).sleepers.map picked ∧
        (m'.rendezvous.get r).sleepers = [] ∧
        m'.sched = m.sched.wakeAll (m.rendezvous.get r).sleepers) ∧
      (∀ t, picked t ∈ m.ofTask (rendezEvents r) → x = .signal r ∨ m.emptied me x = some r) ∧
      (m'.sched.ids.history.Nodup → ∀ t, picked t ∈ m.ofTask (rendezEvents r) → ∃ name us,
        ∀ n, Along (fun n => n.sched.turn ≠ .held t) m' n → n.sched.ids.history.Nodup →
          n.stackOf t = .leave r :: .acquire name :: us ∧ n.sched.isLive t = true ∧
            n.sched.isStopped t = false) ∧
      ∀ name, x = .sleepOn r name →
        (m'.rendezvous.get r).sleepers = (m.rendezvous.get r).sleepers ++ [me] ∧
        ∀ n, Along (fun n => n.stackOf me ≠ ts) m' n → n.sched.ids.history.Nodup →
          Sleeping me r name ts n := by
  have hhanded := IdAllocator.nodup_history_iff.mp hids
  have hr := h.reaches
  refine ⟨(hr.sleepQueues hhanded).nodup r, h.sleepers hhanded,
    fun t ht => hr.mem_sleepers hhanded ht, ?_⟩
  intro me x ts m' hturn hstack hstep
  have hr' : Reaches p.machine m' := .step hr hstep
  obtain rfl := eq_perform_of_step hturn hstack hstep
  refine ⟨?_, ?_, fun t hpicked => ?_, fun hids' t hpicked => ?_, ?_⟩
  · rintro rfl
    rw [ofTask_of_held hturn hstack]
    exact signal_picks ((hr.sleepQueues hhanded).nodup r)
  · rintro rfl
    rw [ofTask_of_held hturn hstack]
    exact broadcast_picks
  · rw [ofTask_of_held hturn hstack] at hpicked
    exact wake_of_picked (m := m.setStack me ts) hpicked
  · rw [ofTask_of_held hturn hstack] at hpicked
    obtain ⟨name, us, -, hstack', hstop⟩ := stackOf_of_picked hr hhanded hturn hstack
      (IdAllocator.nodup_history_iff.mp hids') hpicked
    refine ⟨name, us, fun n hn hids'' => ?_⟩
    have hhanded'' := IdAllocator.nodup_history_iff.mp hids''
    obtain ⟨hstays, hawake⟩ := hn.awake hr' hhanded'' hstack' hstop
    refine ⟨hstays, ?_, hawake⟩
    by_contra hdead
    have hplain := (hn.reaches hr').plain_of_dead hhanded'' t (by simpa using hdead)
    exact absurd (hplain (.leave r) (by simp [hstays])) (by simp [Task.isPlain])
  · rintro name rfl
    obtain ⟨-, hlist, hbegins, hlive, hus⟩ := sleepOn_begins hr hhanded hturn hstack
    exact ⟨hlist, fun n hn hids'' =>
      hn.sleeping hr' (IdAllocator.nodup_history_iff.mp hids'') hus hbegins hlive⟩

/-- Two threads go to sleep, and the main thread wakes one of them. -/
def twoSleepers : Program :=
  { Program.blank with code :=
      [[.spawn 1, .spawn 1, .yield, .wake 0, .join 2], [.lock 0, .sleep 0 0, .unlock 0]] }

/-- After thirty-six steps both sleep, and after one more only the second one. -/
theorem wakes_present_sleepers_twoSleepers :
    (twoSleepers.final 36).sched.ids.history.Nodup ∧
      (twoSleepers.final 37).sched.ids.history.Nodup ∧
      openSleeps (twoSleepers.machine.notes (ofTask (rendezEvents (.raw 0))) 36) = [2, 3] ∧
      openSleeps (twoSleepers.machine.notes (ofTask (rendezEvents (.raw 0))) 37) = [3] := by
  have hids : (twoSleepers.final 36).sched.ids.history.Nodup := by decide
  have hids' : (twoSleepers.final 37).sched.ids.history.Nodup := by decide
  obtain ⟨-, hopen, -⟩ :=
    (observed_final (ofTask (rendezEvents (.raw 0))) 36 twoSleepers).wakes_present_sleepers hids
  obtain ⟨-, hopen', -⟩ :=
    (observed_final (ofTask (rendezEvents (.raw 0))) 37 twoSleepers).wakes_present_sleepers hids'
  exact ⟨hids, hids', hopen.symm.trans (by decide), hopen'.symm.trans (by decide)⟩

end Machine

end Baton
