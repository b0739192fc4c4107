import Baton.Proofs.Identities
import Baton.Proofs.Program.Released

/-!
# Processes with several schedulers

A process may run schedulers one after another, and at the same time on different threads of the
operating system, which then share memory and locks. Each scheduler has an allocator of its own that
begins with the same identity. So identities do not repeat within a scheduler, but the threads that
two schedulers have hosted as their first, second, … are called the same.

A scheduler that is never run hosts nobody and is left out.
-/

namespace Baton

/-- The thread that is started. -/
def Happening.started? : Happening → Option ThreadId
  | started id => some id
  | _ => none

/-- The threads that are started in the next step. -/
def Machine.starts (m : Machine) : List ThreadId := m.happenings.filterMap Happening.started?

/-- What the threads of several schedulers share. -/
structure Shared where
  mutexes : Store MutexName Mutex
  rendezvous : Store RendezName Rendez
  locks : Store LockName RwState
  memory : Memory
  pipes : Pipes

/-- The machine with other contents of what its threads share with the outside. -/
def Machine.share (x : Shared) (m : Machine) : Machine :=
  { m with
    mutexes := x.mutexes
    rendezvous := x.rendezvous
    locks := x.locks
    memory := x.memory
    pipes := x.pipes }

/-- A process that runs schedulers. -/
structure Process where
  /-- The schedulers with their threads, in the order in which they were created. -/
  machines : List Machine
  /-- Who has been hosted, with the place of the scheduler in that order, oldest first. -/
  hosted : List (Nat × ThreadId)

/-- Something that happens in a process. -/
inductive ProcessEvent where
  /-- A scheduler is created, and the main thread of a program runs on it. -/
  | create (p : Program)
  /-- A scheduler takes a step. -/
  | step (i : Nat)
  | wake (i : Nat) (id : ThreadId)
  | elapse (i : Nat) (d : Span)
  | outage (i : Nat) (e : Option Errno)
  /-- Others change what the threads of a scheduler share with them. -/
  | interfere (i : Nat) (x : Shared)

namespace Process

/-- A process that has not run a scheduler yet. -/
def fresh : Process := ⟨[], []⟩

/-- Applies an operation to a scheduler that starts no thread. -/
def onMachine (i : Nat) (f : Machine → Machine) (P : Process) : Process :=
  { P with machines := P.machines.modify i f }

/-- What becomes of a process. -/
def perform (P : Process) : ProcessEvent → Process
  | .create p =>
    let m := { p with host := .coop }.machine
    { machines := P.machines ++ [m]
      hosted := P.hosted ++ [(P.machines.length, m.sched.main)] }
  | .step i =>
    match P.machines[i]? with
    | none => P
    | some m => match m.step with
      | none => P
      | some n =>
        { machines := P.machines.set i n
          hosted := P.hosted ++ m.starts.map (Prod.mk i) }
  | .wake i id => P.onMachine i (Machine.wakeFromOutside id)
  | .elapse i d => P.onMachine i (Machine.onSched (Sched.elapse d))
  | .outage i e => P.onMachine i (Machine.setOutage e)
  | .interfere i x => P.onMachine i (Machine.share x)

/-- A process after some events. -/
def after (events : List ProcessEvent) : Process := events.foldl perform fresh

/-- The threads that a scheduler has hosted, oldest first. -/
def threadsOf (i : Nat) (P : Process) : List ThreadId :=
  (P.hosted.filter fun x => x.1 = i).map Prod.snd

/-- How many identities the schedulers have handed out. -/
def handed (P : Process) : Nat := go P.machines
where
  go : List Machine → Nat
    | [] => 0
    | m :: ms => m.sched.ids.handed + go ms

end Process

/-! ## One scheduler -/

theorem IdAllocator.history_allocate (a : IdAllocator) :
    a.allocate.2.history = a.history ++ [a.next] := by
  rw [history_eq_map, history_eq_map]
  show (List.range (a.handed + 1)).map a.nth = _
  rw [List.range_succ, List.map_append]
  rfl

namespace Machine

variable {m n : Machine} {me : ThreadId} {x : Task} {ts : List ThreadId}

theorem ids_finish (o : Outcome) (m : Machine) : (m.finish me o).sched.ids = m.sched.ids := by
  unfold finish
  split
  · rfl
  · exact (Sched.quiet_retire_finish me m.sched).ids

/-- Only a spawn hands out an identity. -/
theorem ids_perform (hx : ∀ code, x ≠ .spawn code) :
    (m.perform me x).sched.ids = m.sched.ids := by
  cases hchanges : x.changesRun with
  | false => exact (perform_gentle hchanges).1.quiet.ids
  | true =>
      cases x with
      | suspend =>
          show (m.sched.stop me).ids = _
          unfold Sched.stop
          dsimp only
          split <;> rfl
      | pause => rfl
      | spawn code => exact absurd rfl (hx code)
      | exit => exact ids_finish _ m
      | abort text =>
          refine (ids_finish _ _).trans ?_
          split <;> rfl
      | drain =>
          show (m.drain me).sched.ids = _
          unfold drain
          split <;> rfl
      | _ => cases hchanges

/-- Who is started in a step has the identity that the allocator hands out in it. -/
theorem starts_of_step (hstep : m.step = some n) :
    (m.starts = [] ∧ n.sched.ids = m.sched.ids) ∨
    (m.starts = [m.sched.ids.next] ∧ n.sched.ids = m.sched.ids.allocate.2) := by
  have hnone : (∀ t, .started t ∉ m.happenings) → m.starts = [] := by
    intro hno
    refine List.filterMap_eq_nil_iff.mpr fun e he => ?_
    cases e with
    | started t => exact absurd he (hno t)
    | _ => rfl
  rcases step_cases hstep with ⟨me, x, us, hturn, hstack, rfl⟩ | ⟨hturn, s, hs, rfl⟩
  · have hhappens := happenings_of_held hturn hstack
    by_cases hx : ∃ code, x = .spawn code
    · obtain ⟨code, rfl⟩ := hx
      refine .inr ⟨?_, rfl⟩
      rw [starts, hhappens]
      rfl
    · refine .inl ⟨hnone fun t hmem => ?_, ids_perform fun code he => hx ⟨code, he⟩⟩
      rw [hhappens] at hmem
      exact hx (started_mem_happeningsOf hmem).1
  · refine .inl ⟨hnone fun t hmem => ?_, Sched.ids_search hs⟩
    rw [happenings_of_free hturn] at hmem
    rcases mem_search_happenings hmem with ⟨id, he⟩ | ⟨id, he⟩ <;> cases he

/-- The threads `ts` have been hosted, and they are those to which the allocator, which begins as in
any scheduler, has given identities. -/
structure Hosts (m : Machine) (ts : List ThreadId) : Prop where
  first : m.sched.ids.first = .first
  begun : 0 < m.sched.ids.handed
  history : ts = m.sched.ids.history

theorem Hosts.congr (h : m.Hosts ts) (hids : n.sched.ids = m.sched.ids) : n.Hosts ts :=
  ⟨hids ▸ h.first, hids ▸ h.begun, hids ▸ h.history⟩

theorem hosts_machine (p : Program) : p.machine.Hosts [p.machine.sched.main] :=
  ⟨rfl, Nat.one_pos, rfl⟩

theorem Hosts.step (h : m.Hosts ts) (hstep : m.step = some n) : n.Hosts (ts ++ m.starts) := by
  rcases starts_of_step hstep with ⟨hstarts, hids⟩ | ⟨hstarts, hids⟩
  · rw [hstarts, List.append_nil]
    exact h.congr hids
  · refine ⟨hids ▸ h.first, hids ▸ Nat.succ_pos _, ?_⟩
    rw [hstarts, hids, IdAllocator.history_allocate, h.history]

/-- The threads that a scheduler hosts have the identities from the first one on. -/
theorem Hosts.eq_take (h : m.Hosts ts) :
    ts = (IdAllocator.startingAt .first).take ts.length := by
  have hlength : ts.length = m.sched.ids.handed := by
    rw [h.history, IdAllocator.history, IdAllocator.length_take]
  rw [hlength, h.history, IdAllocator.history, h.first]

theorem Hosts.first_mem (h : m.Hosts ts) : ThreadId.first ∈ ts := by
  rw [h.history, IdAllocator.history_eq_map]
  refine List.mem_map.mpr ⟨0, List.mem_range.mpr h.begun, ?_⟩
  rw [IdAllocator.nth, h.first]
  rfl

theorem Hosts.nodup (h : m.Hosts ts) (hfew : m.sched.ids.handed ≤ UInt64.size) : ts.Nodup :=
  h.history ▸ IdAllocator.nodup_history_iff.mpr hfew

/-- The sentinel is the last number, so it is not reached before all others have been used. -/
theorem Hosts.none_notMem (h : m.Hosts ts) (hfew : m.sched.ids.handed < UInt64.size - 1) :
    ThreadId.none ∉ ts := by
  rw [h.history, IdAllocator.history_eq_map]
  intro hmem
  obtain ⟨k, hk, he⟩ := List.mem_map.mp hmem
  have hk : k < UInt64.size - 2 := Nat.lt_sub_of_add_lt
    (Nat.lt_of_le_of_lt (Nat.add_le_add_right (List.mem_range.mp hk) 1) (by omega))
  have hnone : m.sched.ids.nth (UInt64.size - 2) = ThreadId.none := by
    rw [IdAllocator.nth, h.first]
    rfl
  have hsame := (IdAllocator.nth_inj (Nat.lt_of_lt_of_le hk (by decide)) (by decide)).mp
    (he.trans hnone.symm)
  exact Nat.ne_of_lt hk hsame

end Machine

/-! ## All schedulers -/

namespace Process

variable {P : Process} {m : Machine} {i j : Nat}

/-- Every thread that is hosted has a scheduler, and each scheduler hosts those to which it has
given identities. -/
structure Accounted (P : Process) : Prop where
  placed : ∀ x ∈ P.hosted, x.1 < P.machines.length
  hosts : ∀ (i : Nat) (m : Machine), P.machines[i]? = some m → m.Hosts (P.threadsOf i)

theorem threadsOf_append (i j : Nat) (ms : List Machine) (P : Process) (ts : List ThreadId) :
    threadsOf j ⟨ms, P.hosted ++ ts.map (Prod.mk i)⟩ =
      P.threadsOf j ++ if i = j then ts else [] := by
  rw [threadsOf, List.filter_append, List.map_append]
  congr 1
  split <;> rename_i hij <;> simp [hij, List.filter_map, Function.comp_def]

/-- What starts no thread in a scheduler leaves the account right. -/
theorem Accounted.onMachine {f : Machine → Machine} (h : P.Accounted) (i : Nat)
    (hf : ∀ m, (f m).sched.ids = m.sched.ids) : (P.onMachine i f).Accounted where
  placed x hx := by
    rw [Process.onMachine, List.length_modify]
    exact h.placed x hx
  hosts j n hn := by
    rw [Process.onMachine, List.getElem?_modify] at hn
    obtain ⟨m, hm, rfl⟩ := Option.map_eq_some_iff.mp hn
    refine (h.hosts j m hm).congr ?_
    split
    · exact hf m
    · rfl

theorem Accounted.create (h : P.Accounted) (p : Program) :
    (P.perform (.create p)).Accounted where
  placed x hx := by
    show x.1 < (P.machines ++ [_]).length
    rw [List.length_append]
    rcases List.mem_append.mp hx with hx | hx
    · exact Nat.lt_add_right 1 (h.placed x hx)
    · rw [List.mem_singleton.mp hx]
      exact Nat.lt_succ_self _
  hosts i m hm := by
    have hnew : P.threadsOf P.machines.length = [] := by
      refine List.map_eq_nil_iff.mpr (List.filter_eq_nil_iff.mpr fun x hx => ?_)
      simpa using Nat.ne_of_lt (h.placed x hx)
    have happ := threadsOf_append P.machines.length i
      (P.machines ++ [{ p with host := .coop }.machine]) P [ThreadId.first]
    have hm : (P.machines ++ [{ p with host := .coop }.machine])[i]? = some m := hm
    show m.Hosts (threadsOf i ⟨_, P.hosted ++ [ThreadId.first].map (Prod.mk _)⟩)
    rw [happ]
    rcases Nat.lt_trichotomy i P.machines.length with hi | rfl | hi
    · rw [if_neg (Nat.ne_of_gt hi), List.append_nil]
      exact h.hosts i m ((List.getElem?_append_left hi).symm.trans hm)
    · rw [List.getElem?_concat_length] at hm
      obtain rfl := Option.some.inj hm
      rw [hnew, if_pos rfl]
      exact Machine.hosts_machine _
    · rw [List.getElem?_eq_none (by simpa using Nat.succ_le_of_lt hi)] at hm
      cases hm

theorem Accounted.step (h : P.Accounted) (i : Nat) : (P.perform (.step i)).Accounted := by
  unfold perform
  dsimp only
  split
  · exact h
  · rename_i m hm
    split
    · exact h
    · rename_i n hstep
      have hi : i < P.machines.length := (List.getElem?_eq_some_iff.mp hm).1
      refine ⟨fun x hx => ?_, fun j k hk => ?_⟩
      · rw [List.length_set]
        rcases List.mem_append.mp hx with hx | hx
        · exact h.placed x hx
        · obtain ⟨t, -, rfl⟩ := List.mem_map.mp hx
          exact hi
      · have hk : (P.machines.set i n)[j]? = some k := hk
        rw [threadsOf_append]
        by_cases hij : i = j
        · subst hij
          rw [List.getElem?_set_self hi] at hk
          obtain rfl := Option.some.inj hk
          rw [if_pos rfl]
          exact (h.hosts i m hm).step hstep
        · rw [List.getElem?_set_ne hij] at hk
          rw [if_neg hij, List.append_nil]
          exact h.hosts j k hk

theorem Accounted.perform (h : P.Accounted) (e : ProcessEvent) : (P.perform e).Accounted := by
  cases e with
  | create p => exact h.create p
  | step i => exact h.step i
  | wake i id => exact h.onMachine i fun m => Sched.ids_wakeup id m.sched
  | elapse i d => exact h.onMachine i fun _ => rfl
  | outage i e => exact h.onMachine i fun _ => rfl
  | interfere i x => exact h.onMachine i fun _ => rfl

theorem accounted_after (events : List ProcessEvent) : (after events).Accounted := by
  induction events using List.reverseRecOn with
  | nil => exact ⟨fun x hx => absurd hx (List.not_mem_nil), fun i m hm => by cases hm⟩
  | append_singleton events e ih =>
      rw [after, List.foldl_append]
      exact ih.perform e

theorem le_handed (hm : P.machines[i]? = some m) : m.sched.ids.handed ≤ P.handed := by
  have hgo : ∀ ms : List Machine, m ∈ ms → m.sched.ids.handed ≤ handed.go ms := by
    intro ms hmem
    induction ms with
    | nil => cases hmem
    | cons n ms ih =>
        rcases List.mem_cons.mp hmem with rfl | hmem
        · exact Nat.le_add_right _ _
        · exact Nat.le_trans (ih hmem) (Nat.le_add_left _ _)
  exact hgo _ (List.mem_of_getElem? hm)

theorem mem_threadsOf {t : ThreadId} : t ∈ P.threadsOf i ↔ (i, t) ∈ P.hosted := by
  simp [threadsOf]

/-- Nobody is hosted twice if no scheduler hosts anybody twice. -/
theorem nodup_hosted (h : ∀ i, (P.threadsOf i).Nodup) : P.hosted.Nodup := by
  refine List.nodup_iff_count_le_one.mpr fun x => ?_
  calc P.hosted.count x
      = (P.hosted.filter fun y => y.1 = x.1).count x := (List.count_filter (by simp)).symm
    _ ≤ (P.threadsOf x.1).count x.2 := List.count_le_count_map
    _ ≤ 1 := List.nodup_iff_count_le_one.mp (h x.1) x.2

theorem Accounted.exists_machine (h : P.Accounted) {x : Nat × ThreadId} (hx : x ∈ P.hosted) :
    ∃ m, P.machines[x.1]? = some m ∧ m.Hosts (P.threadsOf x.1) :=
  ⟨_, List.getElem?_eq_getElem (h.placed x hx), h.hosts _ _ (List.getElem?_eq_getElem _)⟩

theorem Accounted.threadsOf_eq_nil (h : P.Accounted) (hi : P.machines[i]? = none) :
    P.threadsOf i = [] := by
  refine List.eq_nil_iff_forall_not_mem.mpr fun t ht => ?_
  have hlt := h.placed _ (mem_threadsOf.mp ht)
  exact absurd (List.getElem?_eq_none_iff.mp hi) (Nat.not_le_of_lt hlt)

theorem Accounted.nodup_threadsOf (h : P.Accounted) (hfew : P.handed ≤ UInt64.size) (i : Nat) :
    (P.threadsOf i).Nodup := by
  cases hm : P.machines[i]? with
  | some m => exact (h.hosts i m hm).nodup (Nat.le_trans (le_handed hm) hfew)
  | none =>
      rw [h.threadsOf_eq_nil hm]
      exact List.nodup_nil

/-- The identities of all hosted threads differ exactly if there is one scheduler at most: the main
threads of two schedulers have the same one. -/
theorem Accounted.nodup_identities_iff (h : P.Accounted) (hfew : P.handed ≤ UInt64.size) :
    (P.hosted.map Prod.snd).Nodup ↔ P.machines.length ≤ 1 := by
  constructor
  · intro hnodup
    by_contra hmany
    have hlt : 1 < P.machines.length := Nat.lt_of_not_le hmany
    have hfirst : ∀ i (hi : i < P.machines.length), (i, ThreadId.first) ∈ P.hosted := fun i hi =>
      mem_threadsOf.mp (h.hosts i _ (List.getElem?_eq_getElem hi)).first_mem
    have hsame := List.inj_on_of_nodup_map hnodup (hfirst 0 (Nat.lt_of_succ_lt hlt))
      (hfirst 1 hlt) rfl
    cases hsame
  · intro hone
    have hall : P.hosted.map Prod.snd = P.threadsOf 0 := by
      rw [threadsOf, List.filter_eq_self.mpr fun x hx => ?_]
      simpa using Nat.lt_one_iff.mp (Nat.lt_of_lt_of_le (h.placed x hx) hone)
    rw [hall]
    exact h.nodup_threadsOf hfew 0

/-- In every process that hands out fewer identities than there are numbers, whatever its schedulers
do to each other: no thread is hosted under the sentinel, no scheduler hosts two threads under one
identity, and each gives its threads the identities from the first one on. So threads of different
schedulers have the same identity exactly if they have the same place, and the identities of all
hosted threads differ exactly if there is one scheduler at most. -/
theorem hosted_identities (events : List ProcessEvent)
    (hfew : (after events).handed < UInt64.size - 1) :
    let P := after events
    (∀ x ∈ P.hosted, x.2 ≠ .none) ∧ P.hosted.Nodup ∧
      (∀ i, P.threadsOf i = (IdAllocator.startingAt .first).take (P.threadsOf i).length) ∧
      ((P.hosted.map Prod.snd).Nodup ↔ P.machines.length ≤ 1) := by
  intro P
  have h : P.Accounted := accounted_after events
  have hsize : P.handed ≤ UInt64.size := Nat.le_of_lt (Nat.lt_of_lt_of_le hfew (by decide))
  refine ⟨fun x hx hnone => ?_, nodup_hosted (h.nodup_threadsOf hsize), fun i => ?_,
    h.nodup_identities_iff hsize⟩
  · obtain ⟨m, hm, hhosts⟩ := h.exists_machine hx
    refine hhosts.none_notMem (Nat.lt_of_le_of_lt (le_handed hm) hfew) ?_
    exact hnone ▸ mem_threadsOf.mpr hx
  · cases hm : P.machines[i]? with
    | some m => exact (h.hosts i m hm).eq_take
    | none =>
        rw [h.threadsOf_eq_nil hm]
        rfl

/-- The main threads of two schedulers have the same identity. -/
theorem identities_repeat :
    let P := after [.create .blank, .create .blank]
    P.handed = 2 ∧ P.hosted = [(0, .first), (1, .first)] ∧ ¬ (P.hosted.map Prod.snd).Nodup := by
  decide

/-- A thread is started on the first of two schedulers. -/
def pair : List ProcessEvent :=
  [.create { Program.blank with code := [[.spawn 1]] }, .create .blank, .step 0, .step 0]

/-- Three threads are hosted, and the two main threads have the same identity. -/
theorem hosted_identities_pair :
    let P := after pair
    P.hosted = [(0, 1), (1, 1), (0, 2)] ∧ (∀ x ∈ P.hosted, x.2 ≠ .none) ∧ P.hosted.Nodup ∧
      ¬ (P.hosted.map Prod.snd).Nodup := by
  intro P
  obtain ⟨hnone, hnodup, -, hiff⟩ := hosted_identities pair (by decide)
  refine ⟨by decide, hnone, hnodup, fun hall => ?_⟩
  exact absurd (hiff.mp hall) (by decide)

end Process

end Baton
