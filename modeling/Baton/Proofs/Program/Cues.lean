import Baton.Proofs.Program.Chronicle
import Baton.Proofs.Program.Order
import Baton.Proofs.Sched.Phase

/-!
# Machine: each thread follows its semaphore

The happenings of a run that concern one thread are cues to it. Here it is shown that they fit
the life of a thread at a binary semaphore, and that its status is at any moment what that life
says: every return of a suspension consumes a wakeup that is newer than the one consumed before, and
no wakeup of a live thread is dropped.

## Implementation notes

`Fits` links a phase to a state of the scheduler. `Follows` says of a change that it takes every
thread from a fitting phase to a fitting one by its cues, so changes are dealt with one after the
other.
-/

namespace Baton

/-- What a happening is to the semaphore of a thread. -/
def Happening.cue? (t : ThreadId) : Happening → Option Cue
  | started id => if id = t then some .start else none
  | woken id => if id = t then some .wakeup else none
  | stopped id => if id = t then some .stop else none
  | yielded id => if id = t then some .yield else none
  | resumed id => if id = t then some .resume else none
  | left id => if id = t then some .leave else none
  | ended .. | joined .. => none

/-- The cues to a thread in a chronicle. -/
def cues (t : ThreadId) (τ : List Happening) : List Cue := τ.filterMap (Happening.cue? t)

section Cues

variable {t id : ThreadId} {τ τ' : List Happening}

@[simp] theorem cues_append (t : ThreadId) (τ τ' : List Happening) :
    cues t (τ ++ τ') = cues t τ ++ cues t τ' :=
  List.filterMap_append

theorem cues_woken (t : ThreadId) (ids : List ThreadId) :
    cues t (ids.map .woken) = List.replicate (ids.count t) .wakeup := by
  induction ids with
  | nil => rfl
  | cons id ids ih =>
      rw [List.map_cons, cues, List.filterMap_cons, Happening.cue?]
      by_cases h : id = t
      · rw [if_pos h, h, List.count_cons_self, List.replicate_succ]
        exact congrArg _ ih
      · rw [if_neg h, List.count_cons_of_ne h]
        exact ih

theorem start_mem_cues : .start ∈ cues t τ ↔ .started t ∈ τ := by
  simp only [cues, List.mem_filterMap]
  constructor
  · rintro ⟨h, hmem, hcue⟩
    cases h <;> simp_all [Happening.cue?]
  · exact fun hmem => ⟨_, hmem, by simp [Happening.cue?]⟩

theorem leave_mem_cues : .leave ∈ cues t τ ↔ .left t ∈ τ := by
  simp only [cues, List.mem_filterMap]
  constructor
  · rintro ⟨h, hmem, hcue⟩
    cases h <;> simp_all [Happening.cue?]
  · exact fun hmem => ⟨_, hmem, by simp [Happening.cue?]⟩

end Cues

namespace Sched

variable {s s' s'' : Sched} {me t id giver : ThreadId} {x : Phase} {τ τ' : List Happening}
  {ids : List ThreadId}

/-- The phase fits what the scheduler knows of a thread. -/
structure Fits (t : ThreadId) (x : Phase) (s : Sched) : Prop where
  semaphore : s.semaphore? t = x.semaphore?
  awake : s.turn = .held t → x.isAwake = true
  issued : x ≠ .unborn → s.ids.Issued t

/-- The cues in `τ` take every thread from a phase that fits before to one that fits after. -/
def Follows (τ : List Happening) (s s' : Sched) : Prop :=
  ∀ t x, Fits t x s → ∃ y, x.run (cues t τ) = some y ∧ Fits t y s'

theorem Follows.trans (h : Follows τ s s') (h' : Follows τ' s' s'') :
    Follows (τ ++ τ') s s'' := by
  intro t x hx
  obtain ⟨y, hrun, hy⟩ := h t x hx
  obtain ⟨z, hrun', hz⟩ := h' t y hy
  exact ⟨z, by rw [cues_append]; exact Phase.run_append_of hrun hrun', hz⟩

theorem Follows.congr (h : Follows τ s s') (hτ : ∀ t, cues t τ' = cues t τ) :
    Follows τ' s s' := by
  intro t x hx
  rw [hτ]
  exact h t x hx

/-- Nothing happens to the semaphores, and nobody is given the turn. -/
theorem follows_nil (hsemaphore : ∀ t, s'.semaphore? t = s.semaphore? t)
    (hturn : ∀ t, s'.turn = .held t → s.turn = .held t) (hids : s'.ids = s.ids) :
    Follows [] s s' :=
  fun t x hx => ⟨x, rfl, (hsemaphore t).trans hx.semaphore, fun h => hx.awake (hturn t h),
    fun h => hids ▸ hx.issued h⟩

/-- Threads are woken, and nobody is given the turn. -/
theorem follows_woken
    (hsemaphore : ∀ t, s'.semaphore? t = (s.semaphore? t).map (Semaphore.wake^[ids.count t]))
    (hturn : ∀ t, s'.turn = .held t → s.turn = .held t) (hids : s'.ids = s.ids) :
    Follows (ids.map .woken) s s' := by
  intro t x hx
  rw [cues_woken]
  refine ⟨_, Phase.run_wakeups x _, ?_, fun h => ?_, fun h => ?_⟩
  · rw [hsemaphore, hx.semaphore, Phase.semaphore?_wakes]
  · rw [Phase.isAwake_wakes]
    exact hx.awake (hturn t h)
  · rw [hids]
    refine hx.issued fun he => h ?_
    rw [he, Phase.wakes_unborn]

/-- Something happens to one thread, and the others notice nothing. -/
theorem follows_one {h : Happening} {σ : Cue} (hcue : ∀ t, h.cue? t =
      if me = t then some σ else none)
    (hothers : ∀ t, t ≠ me → s'.semaphore? t = s.semaphore? t)
    (hturn : ∀ t, t ≠ me → s'.turn = .held t → s.turn = .held t)
    (hids : ∀ t, s.ids.Issued t → s'.ids.Issued t)
    (hme : ∀ x, Fits me x s → ∃ y, x.after σ = some y ∧ Fits me y s') : Follows [h] s s' := by
  intro t x hx
  have hσ : cues t [h] = if me = t then [σ] else [] := by
    rw [cues, List.filterMap_cons, hcue]
    by_cases he : me = t <;> simp [he]
  rw [hσ]
  by_cases he : t = me
  · subst he
    obtain ⟨y, hy, hfits⟩ := hme x hx
    exact ⟨y, by rw [if_pos rfl, Phase.run, hy]; rfl, hfits⟩
  · rw [if_neg (Ne.symm he)]
    exact ⟨x, rfl, (hothers t he).trans hx.semaphore, fun hh => hx.awake (hturn t he hh),
      fun hh => hids t (hx.issued hh)⟩

/-- The phase of the thread that has the turn. -/
theorem Fits.exists_awake (h : Fits me x s) (ht : s.turn = .held me) :
    ∃ p, x = .awake p ∧ s.semaphore? me = some ⟨false, p⟩ := by
  have hawake := h.awake ht
  have hsemaphore := h.semaphore
  cases x with
  | awake p => exact ⟨p, rfl, hsemaphore⟩
  | _ => cases hawake

/-! ## The running thread -/

/-- A stop keeps the turn if a wakeup is pending, and gives it away otherwise. -/
theorem turn_stop_eq {p : Bool} (h : s.semaphore? me = some ⟨false, p⟩) :
    (s.stop me).turn = if p then s.turn else .seeking me := by
  have hgoes : s.isStopped me = false := by
    rw [isStopped_eq_semaphore?, h]
    rfl
  have hafter : (s.onStatus me Status.stop).isStopped me = !p := by
    have hslots : (s.onStatus me Status.stop).semaphore? me = (s.stop me).semaphore? me := by
      rw [semaphore?, semaphore?, slots_stop]
    rw [isStopped_eq_semaphore?, hslots, semaphore?_stop hgoes, if_pos rfl, h]
    rfl
  rw [stop, hafter]
  cases p <;> rfl

theorem follows_stop (hc : s.Coherent) (ht : s.turn = .held me) :
    Follows [.stopped me] s (s.stop me) := by
  have hgoes := isStopped_eq_false_of_isRunning (hc.isRunning_of_held ht)
  refine follows_one (fun _ => rfl) (fun t hne => ?_) (fun t hne hh => ?_)
    (fun t hi => (ids_stop me s).symm ▸ hi) fun x hx => ?_
  · rw [semaphore?_stop hgoes, if_neg hne]
  · rcases turn_stop ht with he | he
    · rw [he] at hh
      cases hh
    · rw [he] at hh
      exact absurd (Turn.held.inj hh).symm hne
  · obtain ⟨p, rfl, hsemaphore⟩ := hx.exists_awake ht
    have hnew : (s.stop me).semaphore? me = some ⟨!p, false⟩ := by
      rw [semaphore?_stop hgoes, if_pos rfl, hsemaphore]
      rfl
    have hissued : (s.stop me).ids.Issued me := (ids_stop me s).symm ▸ hx.issued (by simp)
    cases p with
    | true => exact ⟨.awake false, rfl, hnew, fun _ => rfl, fun _ => hissued⟩
    | false =>
        refine ⟨.asleep, rfl, hnew, fun hh => ?_, fun _ => hissued⟩
        rw [turn_stop_eq hsemaphore] at hh
        cases hh

theorem follows_yieldNow (hc : s.Coherent) (ht : s.turn = .held me) :
    Follows [.yielded me] s (s.yieldNow me) := by
  have hsame := semaphore?_yieldNow (isStopped_eq_false_of_isRunning (hc.isRunning_of_held ht))
  refine follows_one (fun _ => rfl) (fun t _ => hsame t) (fun _ _ => nofun) (fun _ hi => hi)
    fun x hx => ?_
  obtain ⟨p, rfl, hsemaphore⟩ := hx.exists_awake ht
  exact ⟨.awake p, by cases p <;> rfl, (hsame me).trans hsemaphore, nofun, hx.issued⟩

/-- A new thread has a new identity, so nothing has happened to it but vain wakeups. -/
theorem follows_spawn (hids : s.ids.handed < UInt64.size) :
    Follows [.started s.ids.next] s s.spawn.2 := by
  refine follows_one (fun _ => rfl) (fun t hne => ?_) (fun t _ hh => hh)
    (fun t hi => IdAllocator.issued_allocate_iff.mpr (.inl hi)) fun x hx => ?_
  · rw [semaphore?_spawn, if_neg hne]
  · obtain rfl : x = .unborn := by
      by_contra hx'
      exact IdAllocator.not_issued_next hids (hx.issued hx')
    refine ⟨.awake false, rfl, ?_, fun _ => rfl, fun _ =>
      IdAllocator.issued_allocate_iff.mpr (.inr rfl)⟩
    rw [semaphore?_spawn, if_pos rfl]
    rfl

theorem follows_retire {turn : Turn} (ht : s.turn = .held me) (hturn : ∀ t, turn ≠ .held t) :
    Follows [.left me] s (s.retire me turn) := by
  refine follows_one (fun _ => rfl) (fun t hne => ?_) (fun t _ hh => absurd hh (hturn t))
    (fun _ hi => hi) fun x hx => ?_
  · rw [semaphore?_retire, if_neg hne]
  · obtain ⟨p, rfl, -⟩ := hx.exists_awake ht
    refine ⟨.gone, by cases p <;> rfl, ?_, fun hh => absurd hh (hturn me),
      fun _ => hx.issued (by simp)⟩
    rw [semaphore?_retire, if_pos rfl]
    rfl

theorem ids_wakeAll (ids : List ThreadId) (s : Sched) : (s.wakeAll ids).ids = s.ids := by
  induction ids generalizing s with
  | nil => rfl
  | cons id ids ih => rw [wakeAll_cons, ih, ids_wakeup]

theorem follows_wakeAll (ids : List ThreadId) (s : Sched) :
    Follows (ids.map .woken) s (s.wakeAll ids) :=
  follows_woken (fun t => semaphore?_wakeAll ids t s) (fun _ hh => turn_wakeAll ids s ▸ hh)
    (ids_wakeAll ids s)

theorem follows_wakeup (id : ThreadId) (s : Sched) : Follows [.woken id] s (s.wakeup id) :=
  follows_wakeAll [id] s

theorem follows_finish (ht : s.turn = .held me) : Follows (.left me ::
    (s.joinersOf me ++ if s.live = 2 then [s.main] else []).map .woken) s (s.finish me) :=
  (follows_retire ht (by simp)).trans (follows_wakeAll _ _)

theorem follows_conclude (ht : s.turn = .held me) : Follows [.left me] s (s.conclude me) :=
  have hretired : Follows [.left me] s (s.retire me .over) := follows_retire ht (by simp)
  hretired.trans (follows_nil (fun _ => rfl) (fun _ hh => hh) rfl)

/-! ## The search -/

theorem follows_serveWaiters (system : PollSystem Descriptor) (longest : Span) {turn : Turn}
    (hturn : ∀ t, turn ≠ .held t) : Follows ((s.polled system longest).map .woken) s
      { (s.serveWaiters system longest).2 with turn } :=
  follows_woken (fun t => semaphore?_serveWaiters system longest t s)
    (fun t hh => absurd hh (hturn t)) (quiet_serveWaiters system longest s).ids

/-- A thread that is given the turn is on its way and not stopped. -/
theorem follows_resumed (hsemaphore : ∀ t, s'.semaphore? t = s.semaphore? t)
    (hids : s'.ids = s.ids)
    (hgoes : ∀ t, s'.turn = .held t → s.isLive t = true ∧ s.isStopped t = false) :
    Follows s'.resumption s s' := by
  cases hturn : s'.turn with
  | held me =>
      obtain ⟨hlive, hstop⟩ := hgoes me hturn
      have hresumption : s'.resumption = [.resumed me] := by rw [resumption, hturn]
      rw [hresumption]
      refine follows_one (fun _ => rfl) (fun t _ => hsemaphore t) (fun t hne hh => ?_)
        (fun t hi => hids ▸ hi) fun x hx => ?_
      · rw [hturn] at hh
        exact absurd (Turn.held.inj hh).symm hne
      · rw [isLive_eq_semaphore?, hx.semaphore] at hlive
        rw [isStopped_eq_semaphore?, hx.semaphore] at hstop
        have hissued : ∀ y : Phase, y ≠ .unborn → s'.ids.Issued me := by
          rintro y -
          rw [hids]
          refine hx.issued ?_
          rintro rfl
          cases hlive
        obtain ⟨p, hp, hy⟩ : ∃ p, x.semaphore? = some ⟨false, p⟩ ∧
            x.after .resume = some (.awake p) := by
          cases x with
          | unborn | gone => cases hlive
          | asleep => cases hstop
          | awake p => exact ⟨p, rfl, by cases p <;> rfl⟩
          | roused p => exact ⟨p, rfl, rfl⟩
        exact ⟨_, hy, (hsemaphore me).trans (hx.semaphore.trans hp), fun _ => rfl, hissued _⟩
  | _ =>
      have hresumption : s'.resumption = [] := by rw [resumption, hturn]
      rw [hresumption]
      refine follows_nil hsemaphore (fun t hh => ?_) hids
      rw [hturn] at hh
      cases hh

theorem follows_choose (hc : s.Coherent) (giver : ThreadId) :
    Follows (s.choose giver).resumption s (s.choose giver) := by
  cases hready : s.ready with
  | nil =>
      rw [choose, hready]
      exact follows_nil (fun _ => rfl) (fun _ hh => by cases hh) rfl
  | cons id rest =>
      have hrunnable : isRunnable id { s with ready := rest } = true := hc.isRunnable_head hready
      have hlive : s.isLive id = true := isLive_of_isRunnable hrunnable
      have hgoes : isStopped id { s with ready := rest } = false := by
        by_contra hstop
        have := isRunnable_eq_false_of_isStopped (eq_true_of_ne_false hstop)
        exact absurd (hrunnable.symm.trans this) (by simp)
      have hchoose : s.choose giver = Sched.dispatch giver id { s with ready := rest } := by
        rw [choose, hready]
        exact if_pos hrunnable
      rw [hchoose]
      refine follows_resumed (semaphore?_dispatch hgoes)
        (dispatch_frame giver id { s with ready := rest }).2.2.2 fun t hh => ?_
      rw [turn_dispatch] at hh
      split at hh
      · obtain rfl := Turn.held.inj hh
        exact ⟨hlive, hgoes⟩
      · cases hh

theorem follows_rested (system : PollSystem Descriptor) (giver : ThreadId) :
    Follows ((s.polled system s.idlePoll).map .woken) s (s.rested system giver) := by
  unfold rested settleIdle
  split
  · exact follows_serveWaiters system s.idlePoll (by simp)
  · have hpolled : Follows ((s.polled system s.idlePoll).map .woken) s
        { (s.serveWaiters system s.idlePoll).2 with turn := .stuck giver } :=
      follows_serveWaiters system s.idlePoll (by simp)
    dsimp only
    split
    · exact hpolled
    · have hwarned : Follows []
          { (s.serveWaiters system s.idlePoll).2 with turn := .stuck giver }
          { (s.serveWaiters system s.idlePoll).2.note .stuck with
            warned := true, turn := .stuck giver } :=
        follows_nil (fun _ => rfl) (fun _ hh => hh) rfl
      simpa using hpolled.trans hwarned

theorem follows_takeUp (hc : s.Coherent) (htake : s.takeUp = some s') :
    Follows s'.resumption s s' := by
  refine follows_resumed (semaphore?_takeUp htake) ?_ fun t hh => ?_
  · obtain ⟨id, -, rfl⟩ := Option.map_eq_some_iff.mp htake
    rfl
  · obtain ⟨id, hfind, rfl⟩ := Option.map_eq_some_iff.mp htake
    obtain rfl : id = t := Turn.held.inj hh
    have hbaton : s.hasBaton id = true := by simpa using List.find?_some hfind
    have hrun : s.isRunning id = true := (hc.running_iff id).mpr (.inr hbaton)
    exact ⟨isLive_of_isRunning hrun, isStopped_eq_false_of_isRunning hrun⟩

theorem follows_search {system : PollSystem Descriptor} (hc : s.Coherent)
    (hs : s.search system = some s') : Follows (s.happenings system) s s' := by
  unfold happenings
  cases search_cases hs with
  | poll hturn =>
      rw [hturn]
      exact follows_serveWaiters system .zero (by simp)
  | choose hturn =>
      rw [hturn]
      dsimp only
      rw [hs]
      exact follows_choose hc _
  | rest hturn =>
      rw [hturn]
      exact follows_rested system _
  | revive hturn =>
      rw [hturn]
      dsimp only
      rw [hs]
      exact follows_nil (fun _ => rfl) (fun _ hh => by cases hh) rfl
  | takeUp hturn htake =>
      rw [hturn]
      dsimp only
      rw [hs]
      exact follows_takeUp hc htake

end Sched

namespace Machine

variable {p : Program} {τ : List Happening} {m m' : Machine} {me t : ThreadId} {x : Task}

/-! ## Tasks -/

theorem cues_joining (t me id : ThreadId) (m : Machine) : cues t (m.joining me id) = [] := by
  unfold joining
  cases m.outcomes.get? id <;> rfl

/-- A routine task is nothing but its wakeups to the semaphores. -/
theorem cues_happeningsOf (hx : x.isRoutine = true) (t : ThreadId) :
    cues t (m.happeningsOf me x) = cues t ((m.wokenBy me x).map .woken) := by
  cases x with
  | suspend | pause | spawn | exit | abort | drain | select | selectHere | collect => cases hx
  | awaitThread id => exact cues_joining t me id m
  | joinOutside id =>
      show cues t (if id ∈ m.handles then m.joining me id else []) = []
      split
      · exact cues_joining t me id m
      · rfl
  | _ => rfl

theorem follows_routine (hx : x.isRoutine = true) :
    Sched.Follows (m.happeningsOf me x) m.sched (m.perform me x).sched := by
  have hruns : x.changesRun = false := by
    cases x <;> first | rfl | cases hx
  have hquiet : Sched.Quiet m.sched (m.perform me x).sched := (perform_gentle hruns).1.quiet
  have hwoken := Sched.follows_woken (perform_routine me m hx).sched.semaphore
    (fun _ hh => hquiet.turn ▸ hh) hquiet.ids
  exact hwoken.congr (cues_happeningsOf hx)

theorem semaphore?_select (hx : x.isSelect = true) (t : ThreadId) :
    (m.perform me x).sched.semaphore? t = m.sched.semaphore? t := by
  rcases perform_select me m hx with h | ⟨w, -, h⟩
  · simpa using h.sched.semaphore t
  · rw [h]
    exact Sched.semaphore?_onSlot_same w.id (s := m.sched) fun _ _ => rfl

theorem semaphore?_collect (me t : ThreadId) (m : Machine) :
    (m.perform me .collect).sched.semaphore? t = m.sched.semaphore? t := by
  rcases perform_collect me m with ⟨-, h⟩ | ⟨-, r, h⟩
  · rw [h]
    rfl
  · rw [h]
    exact Sched.semaphore?_onSlot_same me (s := m.sched) fun _ _ => rfl

/-- Waits for descriptors begin and end without a trace in the semaphores. -/
theorem follows_gentle (hx : x.changesRun = false)
    (hsemaphore : ∀ t, (m.perform me x).sched.semaphore? t = m.sched.semaphore? t) :
    Sched.Follows [] m.sched (m.perform me x).sched := by
  have hquiet : Sched.Quiet m.sched (m.perform me x).sched := (perform_gentle hx).1.quiet
  exact Sched.follows_nil hsemaphore (fun _ hh => hquiet.turn ▸ hh) hquiet.ids

theorem follows_finish (o : Outcome) (ht : m.sched.turn = .held me) :
    Sched.Follows (m.endings me o) m.sched (m.finish me o).sched := by
  unfold endings finish
  split
  · exact Sched.follows_nil (fun _ => rfl) (fun _ hh => hh) rfl
  · exact (Sched.follows_finish ht).congr fun _ => rfl

theorem follows_abort (text : String) (ht : m.sched.turn = .held me) :
    Sched.Follows (m.endings me (.panicked text)) m.sched (m.abort me text).sched := by
  unfold abort
  split
  · exact follows_finish _ ht
  · have hnote : Sched.Follows [] m.sched (m.note (.panicked me)).sched :=
      Sched.follows_nil (fun _ => rfl) (fun _ hh => hh) rfl
    exact hnote.trans (follows_finish (m := m.note (.panicked me)) _ ht)

theorem follows_drain (ht : m.sched.turn = .held me) :
    Sched.Follows (m.happeningsOf me .drain) m.sched (m.drain me).sched := by
  show Sched.Follows (if 1 < m.sched.live then [] else [.left me]) _ _
  unfold drain
  split
  · exact Sched.follows_nil (fun _ => rfl) (fun _ hh => hh) rfl
  · exact Sched.follows_conclude ht

/-- Every task takes the semaphores along by what happens in it. -/
theorem follows_perform (hc : m.sched.Coherent) (ht : m.sched.turn = .held me)
    (hids : (m.perform me x).sched.ids.handed ≤ UInt64.size) :
    Sched.Follows (m.happeningsOf me x) m.sched (m.perform me x).sched := by
  cases hx : x.isRoutine with
  | true => exact follows_routine hx
  | false =>
      cases x with
      | suspend => exact Sched.follows_stop hc ht
      | pause => exact Sched.follows_yieldNow hc ht
      | spawn code => exact Sched.follows_spawn hids
      | exit => exact follows_finish _ ht
      | abort text => exact follows_abort text ht
      | drain => exact follows_drain ht
      | select | selectHere => exact follows_gentle rfl (semaphore?_select rfl)
      | collect => exact follows_gentle rfl fun t => semaphore?_collect me t m
      | _ => cases hx

theorem follows_step (hc : m.sched.Coherent) (hstep : m.step = some m')
    (hids : m'.sched.ids.handed ≤ UInt64.size) :
    Sched.Follows m.happenings m.sched m'.sched := by
  rcases step_cases hstep with ⟨me, x, ts, hturn, hstack, rfl⟩ | ⟨hturn, s, hs, rfl⟩
  · rw [happenings_of_held hturn hstack]
    exact follows_perform (m := m.setStack me ts) hc hturn hids
  · rw [happenings_of_free hturn]
    exact Sched.follows_search hc hs

/-! ## Runs -/

/-- At the start the main thread has been started, and nothing else has happened. -/
theorem fits_start (p : Program) (t : ThreadId) :
    ∃ x, Phase.run .unborn (cues t [.started .first]) = some x ∧
      Sched.Fits t x p.machine.sched := by
  have hget : (Sched.start p.idlePoll).slots.get? t =
      if t = .first then some ⟨⟨.running, false⟩, false, [], none⟩ else none :=
    Store.get?_set ..
  by_cases h : t = .first
  · subst h
    exact ⟨.awake false, rfl, by rw [Sched.semaphore?]; exact congrArg _ hget, fun _ => rfl,
      fun _ => ⟨0, Nat.one_pos, rfl⟩⟩
  · refine ⟨.unborn, ?_, ?_, fun hh => ?_, fun hx => absurd rfl hx⟩
    · simp [cues, Happening.cue?, Ne.symm h, Phase.run]
    · have hnone := hget.trans (if_neg h)
      rw [Sched.semaphore?]
      exact congrArg _ hnone
    · exact absurd (Turn.held.inj hh).symm h

/-- At every moment of a run the cues to a thread fit, and lead to a phase that fits what the
scheduler knows of it. -/
theorem Chronicle.exists_fits (h : Chronicle p τ m) (hids : m.sched.ids.handed ≤ UInt64.size)
    (t : ThreadId) :
    ∃ x, Phase.run .unborn (cues t τ) = some x ∧ Sched.Fits t x m.sched := by
  have hfollow : ∀ {τ σ : List Happening} {s s' : Sched}, Sched.Follows σ s s' →
      (∃ x, Phase.run .unborn (cues t τ) = some x ∧ Sched.Fits t x s) →
      ∃ x, Phase.run .unborn (cues t (τ ++ σ)) = some x ∧ Sched.Fits t x s' := by
    rintro τ σ s s' hf ⟨x, hrun, hx⟩
    obtain ⟨y, hrun', hy⟩ := hf t x hx
    exact ⟨y, by rw [cues_append]; exact Phase.run_append_of hrun hrun', hy⟩
  induction h with
  | start => exact fits_start p t
  | step hm hstep ih =>
      have hhanded := Nat.le_trans (handed_le_of_step hstep) hids
      exact hfollow (follows_step (hm.reaches.coherent hhanded) hstep hids) (ih hhanded)
  | @wake τ n id _ ih =>
      exact hfollow (Sched.follows_wakeup id n.sched)
        (ih (by simpa [wakeFromOutside, Machine.onSched] using hids))
  | elapse d _ ih =>
      obtain ⟨x, hrun, hx⟩ := ih hids
      exact ⟨x, hrun, hx.semaphore, hx.awake, hx.issued⟩
  | outage e _ ih => exact ih hids

end Machine

end Baton
