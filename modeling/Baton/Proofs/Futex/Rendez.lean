import Baton.Futex.Rendez
import Mathlib.Algebra.Group.Nat.Defs
import Mathlib.Data.List.Induction
import Mathlib.Logic.Function.Basic
import Mathlib.Tactic.ByContra

/-!
# Rendezvous over one word: no wake is lost

A watch counts the wakes beside a rendezvous, and notes for each thread what this count was when it
last sampled the word. The word is the count modulo its size. A thread that is about to enter the
kernel falls asleep only if the word is what it sampled, hence, as long as there have not been as
many wakes in between as there are words, only if there has been none. A waker holds the mutex from
its count until it has woken sleepers, so nobody samples in between: whoever is in the kernel then
had sampled before.
-/

namespace Baton

namespace SleepPhase

/-- What a thread has sampled whose sleep is not over. -/
def sample? : SleepPhase → Option UInt32
  | sampled seen | entering seen | asleep seen => some seen
  | _ => none

/-- Whether a thread holds the mutex inside an operation. -/
def inSection : SleepPhase → Bool
  | sampled _ | waking _ => true
  | _ => false

@[simp] theorem sample?_away : away.sample? = none := rfl

@[simp] theorem sample?_sampled (seen : UInt32) : (sampled seen).sample? = some seen := rfl

@[simp] theorem sample?_entering (seen : UInt32) : (entering seen).sample? = some seen := rfl

@[simp] theorem sample?_asleep (seen : UInt32) : (asleep seen).sample? = some seen := rfl

@[simp] theorem sample?_returning : returning.sample? = none := rfl

@[simp] theorem sample?_waking (all : Bool) : (waking all).sample? = none := rfl

@[simp] theorem inSection_away : away.inSection = false := rfl

@[simp] theorem inSection_sampled (seen : UInt32) : (sampled seen).inSection = true := rfl

@[simp] theorem inSection_entering (seen : UInt32) : (entering seen).inSection = false := rfl

@[simp] theorem inSection_asleep (seen : UInt32) : (asleep seen).inSection = false := rfl

@[simp] theorem inSection_returning : returning.inSection = false := rfl

@[simp] theorem inSection_waking (all : Bool) : (waking all).inSection = true := rfl

end SleepPhase

namespace FutexRendez

variable {r : FutexRendez} {t u : ThreadId} {a : SleepAction}

@[simp] theorem phase_setPhase (r : FutexRendez) (t u : ThreadId) (p : SleepPhase) :
    (r.setPhase t p).phase u = if u = t then p else r.phase u :=
  Store.get_set ..

@[simp] theorem phase_mk (r : FutexRendez) (word : UInt32) (holder : Option ThreadId)
    (u : ThreadId) : (⟨word, holder, r.phases⟩ : FutexRendez).phase u = r.phase u := rfl

@[simp] theorem word_setPhase (r : FutexRendez) (t : ThreadId) (p : SleepPhase) :
    (r.setPhase t p).word = r.word := rfl

@[simp] theorem holder_setPhase (r : FutexRendez) (t : ThreadId) (p : SleepPhase) :
    (r.setPhase t p).holder = r.holder := rfl

theorem isAsleep_iff : r.isAsleep t = true ↔ ∃ seen, r.phase t = .asleep seen := by
  unfold isAsleep
  cases r.phase t <;> simp

/-- Moving a thread puts no other thread to sleep. -/
theorem isAsleep_of_setPhase {p : SleepPhase} (h : (r.setPhase u p).isAsleep t = true)
    (hp : ∀ seen, p ≠ .asleep seen) : t ≠ u ∧ r.isAsleep t = true := by
  obtain ⟨seen, hphase⟩ := isAsleep_iff.mp h
  rw [phase_setPhase] at hphase
  split at hphase
  · exact absurd hphase (hp seen)
  · exact ⟨‹_›, isAsleep_iff.mpr ⟨seen, hphase⟩⟩

theorem mem_sleepers_iff : t ∈ r.sleepers ↔ r.isAsleep t = true := by
  simp only [sleepers, List.mem_filter, and_iff_right_iff_imp]
  intro h
  obtain ⟨seen, hphase⟩ := isAsleep_iff.mp h
  apply Store.mem_keys_of_get_ne_default
  change r.phase t ≠ _
  rw [hphase]
  nofun

@[simp] theorem phase_rouse (ts : List ThreadId) (r : FutexRendez) (u : ThreadId) :
    (r.rouse ts).phase u = if u ∈ ts then .returning else r.phase u := by
  induction ts generalizing r with
  | nil => simp [rouse]
  | cons t ts ih =>
      change ((r.setPhase t .returning).rouse ts).phase u = _
      rw [ih, phase_setPhase]
      by_cases hmem : u ∈ ts <;> by_cases he : u = t <;> simp [hmem, he]

theorem isAsleep_of_rouse {ts : List ThreadId} (h : (r.rouse ts).isAsleep t = true) :
    t ∉ ts ∧ r.isAsleep t = true := by
  obtain ⟨seen, hphase⟩ := isAsleep_iff.mp h
  rw [phase_rouse] at hphase
  split at hphase
  · cases hphase
  · exact ⟨‹_›, isAsleep_iff.mpr ⟨seen, hphase⟩⟩

/-- The thread holds the mutex and is not in an operation, so it may start one. -/
abbrev Ready (t : ThreadId) (r : FutexRendez) : Prop := r.phase t = .away ∧ r.holder = some t

/-- The thread has sampled the word, and has not left the kernel since. -/
def Waits (t : ThreadId) (r : FutexRendez) : Prop := (r.phase t).sample?.isSome = true

/-! ## Counting wakes -/

/-- A rendezvous beside a count of its wakes. -/
structure Watch where
  rendez : FutexRendez
  wakes : Nat
  /-- The count when the thread last sampled the word. -/
  samples : ThreadId → Nat

namespace Watch

variable {w : Watch}

/-- Nobody has used the rendezvous. -/
def fresh : Watch := ⟨FutexRendez.fresh, 0, fun _ => 0⟩

/-- The wakes after an action. -/
def wakesAfter (w : Watch) : SleepAction → Nat
  | .wake t _ => if w.rendez.Ready t then w.wakes + 1 else w.wakes
  | _ => w.wakes

/-- The counts at the samples after an action. -/
def samplesAfter (w : Watch) : SleepAction → ThreadId → Nat
  | .sleep t => if w.rendez.Ready t then Function.update w.samples t w.wakes else w.samples
  | _ => w.samples

/-- Carries out an action. -/
def step (w : Watch) (a : SleepAction) : Watch :=
  ⟨w.rendez.step a, w.wakesAfter a, w.samplesAfter a⟩

/-- The thread is asleep, and has sampled before the count of wakes came to `n`. -/
def Oversleeps (n : Nat) (t : ThreadId) (w : Watch) : Prop :=
  w.rendez.isAsleep t = true ∧ w.samples t < n

end Watch

/-- What a watch shows after a run. -/
def watch (actions : List SleepAction) : Watch := actions.foldl Watch.step Watch.fresh

theorem watch_concat (actions : List SleepAction) (a : SleepAction) :
    watch (actions ++ [a]) = (watch actions).step a := by
  simp [watch]

/-- A watch runs beside the rendezvous and leaves it alone. -/
theorem rendez_foldl (w : Watch) (actions : List SleepAction) :
    (actions.foldl Watch.step w).rendez = w.rendez.run actions := by
  induction actions generalizing w with
  | nil => rfl
  | cons a actions ih => exact ih (w.step a)

theorem rendez_watch (actions : List SleepAction) : (watch actions).rendez = fresh.run actions :=
  rendez_foldl Watch.fresh actions

/-- Whenever a thread enters the kernel, there have been fewer wakes since its sample than there are
words. -/
def Timely (actions : List SleepAction) : Prop :=
  ∀ before t choice seen, before ++ [.advance t choice] <+: actions →
    (fresh.run before).phase t = .entering seen →
      (watch before).wakes < (watch before).samples t + 2 ^ 32

/-! ## Moves -/

namespace Watch

variable {w w' : Watch} {n : Nat} {t : ThreadId}

/-- What an action does, if it does anything. -/
inductive Move (w : Watch) : SleepAction → Watch → Prop where
  | acquire {t : ThreadId} : w.rendez.holder = none →
      Move w (.acquire t) { w with rendez := { w.rendez with holder := some t } }
  | release {t : ThreadId} : w.rendez.Ready t →
      Move w (.release t) { w with rendez := { w.rendez with holder := none } }
  | sample {t : ThreadId} : w.rendez.Ready t →
      Move w (.sleep t) { w with
        rendez := w.rendez.setPhase t (.sampled w.rendez.word)
        samples := Function.update w.samples t w.wakes }
  | count {t : ThreadId} {all : Bool} : w.rendez.Ready t →
      Move w (.wake t all) { w with
        rendez := { w.rendez with word := w.rendez.word + 1 }.setPhase t (.waking all)
        wakes := w.wakes + 1 }
  | leaveSection {t : ThreadId} {choice : Nat} {seen : UInt32} :
      w.rendez.phase t = .sampled seen →
      Move w (.advance t choice)
        { w with rendez := { w.rendez with holder := none }.setPhase t (.entering seen) }
  | doze {t : ThreadId} {choice : Nat} : w.rendez.phase t = .entering w.rendez.word →
      Move w (.advance t choice) { w with rendez := w.rendez.setPhase t (.asleep w.rendez.word) }
  /-- Leaves the kernel, or finds another word than it sampled. -/
  | leaveKernel {a : SleepAction} {t : ThreadId} :
      (w.rendez.phase t).sample?.isSome = true → (w.rendez.phase t).inSection = false →
      Move w a { w with rendez := w.rendez.setPhase t .returning }
  | reacquire {t : ThreadId} {choice : Nat} : w.rendez.holder = none →
      Move w (.advance t choice)
        { w with rendez := { w.rendez with holder := some t }.setPhase t .away }
  | rouse {t : ThreadId} {all : Bool} {choice : Nat} : w.rendez.phase t = .waking all →
      Move w (.advance t choice)
        { w with rendez := (w.rendez.setPhase t .away).rouse (w.rendez.chosen all choice) }

theorem step_advance (w : Watch) (t : ThreadId) (choice : Nat) :
    w.step (.advance t choice) = { w with rendez := w.rendez.advance t choice } := rfl

theorem step_advance_cases (w : Watch) (t : ThreadId) (choice : Nat) :
    w.step (.advance t choice) = w ∨ Move w (.advance t choice) (w.step (.advance t choice)) := by
  rw [step_advance, FutexRendez.advance]
  cases hphase : w.rendez.phase t with
  | away => exact .inl rfl
  | sampled seen => exact .inr (.leaveSection hphase)
  | entering seen =>
      by_cases hword : w.rendez.word = seen
      · subst hword
        simp only [if_true]
        exact .inr (.doze hphase)
      · simp only [if_neg hword]
        exact .inr (.leaveKernel (by simp [hphase]) (by simp [hphase]))
  | asleep seen => exact .inl rfl
  | returning =>
      by_cases hfree : w.rendez.holder = none
      · simp only [if_pos hfree]
        exact .inr (.reacquire hfree)
      · exact .inl (by simp only [if_neg hfree])
  | waking all => exact .inr (.rouse hphase)

theorem step_cases (w : Watch) (a : SleepAction) : w.step a = w ∨ Move w a (w.step a) := by
  cases a with
  | acquire t =>
      rw [step, FutexRendez.step]
      split
      · exact .inr (.acquire ‹_ ∧ _›.2)
      · exact .inl rfl
  | release t =>
      rw [step, FutexRendez.step]
      split
      · exact .inr (.release ‹_›)
      · exact .inl rfl
  | sleep t =>
      by_cases hready : w.rendez.Ready t
      · rw [step, FutexRendez.step, if_pos hready, samplesAfter, if_pos hready]
        exact .inr (.sample hready)
      · rw [step, FutexRendez.step, if_neg hready, samplesAfter, if_neg hready]
        exact .inl rfl
  | wake t all =>
      by_cases hready : w.rendez.Ready t
      · rw [step, FutexRendez.step, if_pos hready, wakesAfter, if_pos hready]
        exact .inr (.count hready)
      · rw [step, FutexRendez.step, if_neg hready, wakesAfter, if_neg hready]
        exact .inl rfl
  | advance t choice => exact step_advance_cases w t choice
  | disturb t =>
      rw [step, FutexRendez.step]
      split
      · rename_i hasleep
        obtain ⟨seen, hphase⟩ := isAsleep_iff.mp hasleep
        exact .inr (.leaveKernel (by simp [hphase]) (by simp [hphase]))
      · exact .inl rfl

/-! ## The invariant -/

/-- What a watch shows at every moment. -/
structure Sound (w : Watch) : Prop where
  word : w.rendez.word = UInt32.ofNat w.wakes
  sample : ∀ t seen, (w.rendez.phase t).sample? = some seen →
    seen = UInt32.ofNat (w.samples t) ∧ w.samples t ≤ w.wakes
  holder : ∀ t, (w.rendez.phase t).inSection = true → w.rendez.holder = some t

theorem sound_fresh : fresh.Sound where
  word := rfl
  sample _ _ h := by cases h
  holder _ h := by cases h

namespace Sound

/-- If nobody holds the mutex, nobody is in a section. -/
theorem inSection_eq_false (h : w.Sound) (hfree : w.rendez.holder = none) (t : ThreadId) :
    (w.rendez.phase t).inSection = false := by
  by_contra hin
  rw [Bool.not_eq_false] at hin
  rw [h.holder t hin] at hfree
  cases hfree

/-- If a thread holds the mutex, no other thread is in a section. -/
theorem eq_of_inSection (h : w.Sound) {t u : ThreadId} (ht : w.rendez.holder = some t)
    (hu : (w.rendez.phase u).inSection = true) : u = t :=
  Option.some.inj ((h.holder u hu).symm.trans ht)

/-- A thread goes on with a sample that it has, or with none, and leaves its section if it is in
one. -/
theorem setPhase (h : w.Sound) {t : ThreadId} {p : SleepPhase} {holder : Option ThreadId}
    (hp : ∀ seen, p.sample? = some seen → (w.rendez.phase t).sample? = some seen)
    (hout : p.inSection = false)
    (hothers : ∀ u, u ≠ t → (w.rendez.phase u).inSection = true → holder = some u) :
    Sound { w with rendez := { w.rendez with holder := holder }.setPhase t p } := by
  refine ⟨h.word, fun u seen hu => ?_, fun u hu => ?_⟩ <;>
    simp only [phase_setPhase, phase_mk] at hu <;> split at hu
  · rename_i he
    subst he
    exact h.sample u seen (hp seen hu)
  · exact h.sample u seen hu
  · rw [hout] at hu
    cases hu
  · exact hothers u ‹_› hu

/-- Threads that the kernel wakes forget their samples. -/
theorem rouse (h : w.Sound) (ts : List ThreadId) :
    Sound { w with rendez := w.rendez.rouse ts } := by
  induction ts generalizing w with
  | nil => exact h
  | cons t ts ih => exact ih (h.setPhase (t := t) (by simp) rfl fun u _ hu => h.holder u hu)

theorem move (h : w.Sound) {a : SleepAction} (hmove : Move w a w') : w'.Sound := by
  cases hmove with
  | acquire hfree =>
      refine ⟨h.word, h.sample, fun u hu => ?_⟩
      exact absurd ((h.inSection_eq_false hfree u).symm.trans hu) nofun
  | @release t hready =>
      refine ⟨h.word, h.sample, fun u hu => ?_⟩
      obtain rfl := h.eq_of_inSection hready.2 hu
      rw [phase_mk, hready.1] at hu
      cases hu
  | @sample t hready =>
      refine ⟨h.word, fun u seen hu => ?_, fun u hu => ?_⟩ <;>
        simp only [phase_setPhase] at hu <;> by_cases he : u = t
      · subst he
        simp only [if_true, SleepPhase.sample?_sampled, Option.some.injEq] at hu
        simp [← hu, h.word]
      · simp only [if_neg he] at hu
        simpa [he] using h.sample u seen hu
      · exact he ▸ hready.2
      · rw [if_neg he] at hu
        exact h.holder u hu
  | @count t all hready =>
      refine ⟨?_, fun u seen hu => ?_, fun u hu => ?_⟩
      · simp [h.word, UInt32.ofNat_add]
      · simp only [phase_setPhase, phase_mk] at hu
        split at hu
        · cases hu
        · obtain ⟨hseen, hle⟩ := h.sample u seen hu
          exact ⟨hseen, Nat.le_succ_of_le hle⟩
      · simp only [phase_setPhase, phase_mk] at hu
        split at hu
        · rename_i he
          exact he ▸ hready.2
        · exact h.holder u hu
  | @leaveSection t choice seen hphase =>
      have hholder := h.holder t (by simp [hphase])
      refine h.setPhase (by simp [hphase]) rfl fun u hne hu => ?_
      exact absurd (h.eq_of_inSection hholder hu) hne
  | doze hphase => exact h.setPhase (by simp [hphase]) rfl fun u _ hu => h.holder u hu
  | leaveKernel hsample hsection => exact h.setPhase (by simp) rfl fun u _ hu => h.holder u hu
  | reacquire hfree =>
      refine h.setPhase (by simp) rfl fun u _ hu => ?_
      exact absurd ((h.inSection_eq_false hfree u).symm.trans hu) nofun
  | @rouse t all choice hphase =>
      exact (h.setPhase (t := t) (p := .away) (by simp) rfl fun u _ hu => h.holder u hu).rouse _

theorem step (h : w.Sound) (a : SleepAction) : (w.step a).Sound := by
  obtain he | hmove := w.step_cases a
  · rwa [he]
  · exact h.move hmove

end Sound

theorem sound_watch (actions : List SleepAction) : (watch actions).Sound := by
  induction actions using List.reverseRecOn with
  | nil => exact sound_fresh
  | append_singleton actions a ih =>
      rw [watch_concat]
      exact ih.step a

/-! ## Who is asleep -/

theorem wakes_step (w : Watch) (a : SleepAction) :
    w.wakes ≤ (w.step a).wakes ∧ (w.step a).wakes ≤ w.wakes + 1 := by
  change w.wakes ≤ w.wakesAfter a ∧ w.wakesAfter a ≤ w.wakes + 1
  unfold wakesAfter
  split
  · split <;> omega
  · omega

/-- Whoever is asleep after a step was asleep before, or has fallen asleep since the word is what it
had sampled. Either way that was its last sample. -/
theorem asleep_of_step {a : SleepAction}
    (ht : (w.step a).rendez.isAsleep t = true) :
    (w.step a).samples t = w.samples t ∧ (w.rendez.isAsleep t = true ∨
      (∃ choice, a = .advance t choice) ∧ w.rendez.phase t = .entering w.rendez.word) := by
  obtain he | hmove := w.step_cases a
  · rw [he] at ht ⊢
    exact ⟨rfl, .inl ht⟩
  · generalize w.step a = w' at hmove ht ⊢
    cases hmove with
    | acquire _ => exact ⟨rfl, .inl ht⟩
    | release _ => exact ⟨rfl, .inl ht⟩
    | sample _ =>
        obtain ⟨hne, ht⟩ := isAsleep_of_setPhase ht nofun
        exact ⟨Function.update_of_ne hne _ _, .inl ht⟩
    | count _ => exact ⟨rfl, .inl (isAsleep_of_setPhase ht nofun).2⟩
    | leaveSection _ => exact ⟨rfl, .inl (isAsleep_of_setPhase ht nofun).2⟩
    | @doze u choice hphase =>
        refine ⟨rfl, ?_⟩
        by_cases he : t = u
        · subst he
          exact .inr ⟨⟨choice, rfl⟩, hphase⟩
        · obtain ⟨seen, hasleep⟩ := isAsleep_iff.mp ht
          rw [phase_setPhase, if_neg he] at hasleep
          exact .inl (isAsleep_iff.mpr ⟨seen, hasleep⟩)
    | leaveKernel _ _ => exact ⟨rfl, .inl (isAsleep_of_setPhase ht nofun).2⟩
    | reacquire _ => exact ⟨rfl, .inl (isAsleep_of_setPhase ht nofun).2⟩
    | rouse _ => exact ⟨rfl, .inl (isAsleep_of_setPhase (isAsleep_of_rouse ht).2 nofun).2⟩

/-- The count has come to `n`, and the thread is not asleep since a sample before that. -/
def Roused (n : Nat) (t : ThreadId) (w : Watch) : Prop := n ≤ w.wakes ∧ ¬ w.Oversleeps n t

/-- A thread falls asleep only if there has been no wake since its sample, as long as there have
been fewer than there are words. -/
theorem Sound.samples_eq_of_entering (h : w.Sound) {t : ThreadId}
    (ht : w.rendez.phase t = .entering w.rendez.word) (hfew : w.wakes < w.samples t + 2 ^ 32) :
    w.samples t = w.wakes := by
  obtain ⟨hseen, hle⟩ := h.sample t w.rendez.word (by simp [ht])
  rw [h.word] at hseen
  have hmod := congrArg UInt32.toNat hseen
  simp only [UInt32.toNat_ofNat'] at hmod
  omega

theorem Roused.step (hr : w.Roused n t) (h : w.Sound) {a : SleepAction}
    (hfew : ∀ choice, a = .advance t choice → ∀ seen, w.rendez.phase t = .entering seen →
      w.wakes < w.samples t + 2 ^ 32) : (w.step a).Roused n t := by
  refine ⟨Nat.le_trans hr.1 (w.wakes_step a).1, ?_⟩
  rintro ⟨hasleep, hearly⟩
  obtain ⟨hsame, hbefore | ⟨⟨choice, ha⟩, hphase⟩⟩ := asleep_of_step hasleep
  · exact hr.2 ⟨hbefore, hsame ▸ hearly⟩
  · have hnow := h.samples_eq_of_entering hphase (hfew choice ha _ hphase)
    have hreached := hr.1
    omega

end Watch

theorem Timely.of_append {before after : List SleepAction} (h : Timely (before ++ after)) :
    Timely before :=
  fun earlier t choice seen hbegins =>
    h earlier t choice seen (hbegins.trans (List.prefix_append _ _))

theorem wakes_le_length (actions : List SleepAction) : (watch actions).wakes ≤ actions.length := by
  induction actions using List.reverseRecOn with
  | nil => exact Nat.le_refl _
  | append_singleton actions a ih =>
      have hstep := ((watch actions).wakes_step a).2
      rw [watch_concat, List.length_append, List.length_singleton]
      omega

/-- A run with fewer actions than there are words is timely. -/
theorem timely_of_length {actions : List SleepAction} (h : actions.length < 2 ^ 32) :
    Timely actions := by
  intro before t choice seen hbegins _
  have hwakes := wakes_le_length before
  have hlength := hbegins.length_le
  rw [List.length_append, List.length_singleton] at hlength
  omega

/-- A thread that is not asleep since a sample before the count came to `n` will not be. -/
theorem Watch.Roused.run {called after : List SleepAction} {n : Nat}
    (hr : (watch called).Roused n t) (htimely : Timely (called ++ after)) :
    (watch (called ++ after)).Roused n t := by
  induction after using List.reverseRecOn with
  | nil => rwa [List.append_nil]
  | append_singleton after a ih =>
      rw [← List.append_assoc] at htimely ⊢
      rw [watch_concat]
      refine (ih htimely.of_append).step (Watch.sound_watch _) fun choice ha seen hphase => ?_
      subst ha
      rw [rendez_watch] at hphase
      exact htimely _ t choice seen (List.prefix_refl _) hphase

/-! ## From the count of a wake to the call of the kernel -/

namespace Watch

variable {w : Watch} {t : ThreadId} {all : Bool} {choice : Nat}

/-- While a waker is about to call the kernel, it keeps the mutex, so nobody samples the word. -/
theorem Sound.step_of_waking (h : w.Sound) (ht : w.rendez.phase t = .waking all)
    (ha : ∀ c, a ≠ .advance t c) :
    (w.step a).rendez.phase t = .waking all ∧
      ∀ u, (w.step a).rendez.Waits u → w.rendez.Waits u := by
  have hholder : w.rendez.holder = some t := h.holder t (by simp [ht])
  have htaken : w.rendez.holder ≠ none := by simp [hholder]
  have hbusy : ∀ u, ¬ w.rendez.Ready u := by
    rintro u ⟨haway, hheld⟩
    obtain rfl : t = u := Option.some.inj (hholder.symm.trans hheld)
    simp [ht] at haway
  have honly : ∀ u, (w.rendez.phase u).inSection = true → u = t := fun u hu =>
    h.eq_of_inSection hholder hu
  obtain he | hmove := w.step_cases a
  · rw [he]
    exact ⟨ht, fun _ => id⟩
  · generalize w.step a = w' at hmove
    cases hmove with
    | acquire hfree => exact absurd hfree htaken
    | release hready => exact absurd hready (hbusy _)
    | sample hready => exact absurd hready (hbusy _)
    | count hready => exact absurd hready (hbusy _)
    | @leaveSection u choice seen hphase =>
        obtain rfl := honly u (by simp [hphase])
        simp [ht] at hphase
    | @doze u choice hphase =>
        have hne : t ≠ u := by
          rintro rfl
          simp [ht] at hphase
        refine ⟨by simpa [hne] using ht, fun x hx => ?_⟩
        by_cases he : x = u
        · subst he
          simp [Waits, hphase]
        · simpa [Waits, he] using hx
    | @leaveKernel _ u hsample hsection =>
        have hne : t ≠ u := by
          rintro rfl
          simp [ht] at hsection
        refine ⟨by simpa [hne] using ht, fun x hx => ?_⟩
        by_cases he : x = u
        · simp [Waits, he] at hx
        · simpa [Waits, he] using hx
    | reacquire hfree => exact absurd hfree htaken
    | @rouse u all choice hphase =>
        obtain rfl := honly u (by simp [hphase])
        exact absurd rfl (ha choice)

theorem waking_during {called during : List SleepAction}
    (ht : (watch called).rendez.phase t = .waking all) (hduring : ∀ c, .advance t c ∉ during) :
    (watch (called ++ during)).rendez.phase t = .waking all ∧
      (watch called).wakes ≤ (watch (called ++ during)).wakes ∧
      ∀ u, (watch (called ++ during)).rendez.Waits u → (watch called).rendez.Waits u := by
  induction during using List.reverseRecOn with
  | nil =>
      rw [List.append_nil]
      exact ⟨ht, Nat.le_refl _, fun _ => id⟩
  | append_singleton during a ih =>
      simp only [List.mem_append, List.mem_singleton, not_or] at hduring
      obtain ⟨hphase, hwakes, hwaits⟩ := ih fun c => (hduring c).1
      obtain ⟨hphase', hwaits'⟩ :=
        (sound_watch _).step_of_waking hphase fun c => Ne.symm (hduring c).2
      rw [← List.append_assoc, watch_concat]
      exact ⟨hphase', Nat.le_trans hwakes (wakes_step _ a).1, fun u hu => hwaits u (hwaits' u hu)⟩

theorem step_waking (ht : w.rendez.phase t = .waking all) :
    w.step (.advance t choice) =
      { w with rendez := (w.rendez.setPhase t .away).rouse (w.rendez.chosen all choice) } := by
  rw [step_advance, advance, ht]

/-- A call that wakes everybody leaves nobody asleep. -/
theorem not_isAsleep_of_all (ht : w.rendez.phase t = .waking true) (u : ThreadId) :
    ¬ (w.step (.advance t choice)).rendez.isAsleep u = true := by
  rw [step_waking ht]
  intro hu
  obtain ⟨hleft, hasleep⟩ := isAsleep_of_rouse hu
  exact hleft (mem_sleepers_iff.mpr (isAsleep_of_setPhase hasleep nofun).2)

/-- A call of the kernel leaves nobody asleep, or wakes somebody. -/
theorem exists_woken_or (ht : w.rendez.phase t = .waking all) (choice : Nat) :
    (∀ u, ¬ (w.step (.advance t choice)).rendez.isAsleep u = true) ∨
      ∃ u, w.rendez.isAsleep u = true ∧
        ¬ (w.step (.advance t choice)).rendez.isAsleep u = true := by
  cases all with
  | true => exact .inl fun u => not_isAsleep_of_all ht u
  | false =>
      rw [step_waking ht]
      cases hchosen : w.rendez.sleepers[choice % w.rendez.sleepers.length]? with
      | none =>
          refine .inl fun u hu => ?_
          have hasleep := (isAsleep_of_setPhase (isAsleep_of_rouse hu).2 nofun).2
          have hpos := List.length_pos_of_mem (mem_sleepers_iff.mpr hasleep)
          have hlt := Nat.mod_lt choice hpos
          rw [List.getElem?_eq_none_iff] at hchosen
          omega
      | some u =>
          refine .inr ⟨u, mem_sleepers_iff.mp (List.mem_of_getElem? hchosen), fun hu => ?_⟩
          exact (isAsleep_of_rouse hu).1 (by simp [chosen, hchosen])

end Watch

/-- No wake is lost, for every interleaving of any threads that sleep and wake, as long as for each
sleep fewer wakes come between its sample and its call of the kernel than there are words. Take a
wake that starts after the actions `before`, by a thread that holds the mutex, and that calls the
kernel after the actions `during`. If it wakes all sleepers, then from there on no thread is asleep
that sampled the word before the wake was counted. And if any thread had sampled and not left the
kernel when the wake was counted, there is one of these that from there on is not asleep with that
sample. -/
theorem no_wake_lost (before during : List SleepAction) (t : ThreadId) (all : Bool) (choice : Nat)
    (hready : (fresh.run before).Ready t) (hduring : ∀ c, .advance t c ∉ during) :
    let called := before ++ [.wake t all] ++ during ++ [.advance t choice]
    let n := (watch before).wakes + 1
    (all = true → ∀ u after, Timely (called ++ after) →
      ¬ (watch (called ++ after)).Oversleeps n u) ∧
    ((∃ s, (fresh.run before).Waits s) → ∃ u, (fresh.run before).Waits u ∧
      ∀ after, Timely (called ++ after) → ¬ (watch (called ++ after)).Oversleeps n u) := by
  intro called n
  rw [← rendez_watch] at hready ⊢
  have hcounted : watch (before ++ [.wake t all]) = { watch before with
      rendez := { (watch before).rendez with word := (watch before).rendez.word + 1 }.setPhase t
        (.waking all)
      wakes := n } := by
    rw [watch_concat, Watch.step, step, if_pos hready, Watch.wakesAfter, if_pos hready]
    rfl
  have hwaking : (watch (before ++ [.wake t all])).rendez.phase t = .waking all := by
    simp [hcounted]
  obtain ⟨hphase, hwakes, hwaits⟩ := Watch.waking_during hwaking hduring
  have hcalled : watch called = (watch (before ++ [.wake t all] ++ during)).step
      (.advance t choice) := watch_concat ..
  have hn : n ≤ (watch called).wakes := by
    rw [hcalled]
    refine Nat.le_trans ?_ (Watch.wakes_step _ _).1
    rw [hcounted] at hwakes
    exact hwakes
  -- Who does not sleep after the call of the kernel will not sleep with that sample.
  have hroused : ∀ u, ¬ (watch called).rendez.isAsleep u = true → ∀ after,
      Timely (called ++ after) → ¬ (watch (called ++ after)).Oversleeps n u := by
    intro u hawake after htimely
    exact (Watch.Roused.run ⟨hn, fun hover => hawake hover.1⟩ htimely).2
  rw [hcalled] at hroused
  constructor
  · rintro rfl u
    exact hroused u (Watch.not_isAsleep_of_all hphase u)
  · rintro ⟨s, hs⟩
    obtain hnobody | ⟨u, hasleep, hawake⟩ := Watch.exists_woken_or hphase choice
    · exact ⟨s, hs, hroused s (hnobody s)⟩
    · refine ⟨u, ?_, hroused u hawake⟩
      obtain ⟨seen, hseen⟩ := isAsleep_iff.mp hasleep
      have hwaited := hwaits u (by rw [Waits, hseen]; rfl)
      rw [hcounted] at hwaited
      by_cases he : u = t
      · simp [Waits, he] at hwaited
      · simpa [Waits, he] using hwaited

/-- The first thread falls asleep, the second one has released the mutex and has yet to enter the
kernel, and the third one has taken the mutex. -/
def gap : List SleepAction :=
  [.acquire 1, .sleep 1, .advance 1 0, .advance 1 0, .acquire 2, .sleep 2, .advance 2 0, .acquire 3]

/-- The third thread counts a wake of one sleeper, or of all, then the second one enters the kernel,
and then the kernel wakes. -/
def wokenInGap (all : Bool) : List SleepAction :=
  gap ++ [.wake 3 all] ++ [.advance 2 0] ++ [.advance 3 0]

/-- Two threads have sampled the word, one of them asleep and one in the gap. Neither is asleep with
that sample after a wake of all, and after a wake of one sleeper one of them is not, however the run
goes on for fewer actions than there are words. -/
theorem no_wake_lost_gap :
    ((fresh.run gap).Ready 3 ∧ (∀ c, .advance 3 c ∉ [SleepAction.advance 2 0]) ∧
      (fresh.run gap).isAsleep 1 = true ∧ (fresh.run gap).phase 2 = .entering 0) ∧
    (∀ u after, (wokenInGap true ++ after).length < 2 ^ 32 →
      ¬ (watch (wokenInGap true ++ after)).Oversleeps 1 u) ∧
    ∃ u, (fresh.run gap).Waits u ∧ ∀ after, (wokenInGap false ++ after).length < 2 ^ 32 →
      ¬ (watch (wokenInGap false ++ after)).Oversleeps 1 u := by
  have hready : (fresh.run gap).Ready 3 := by decide
  have hduring : ∀ c, .advance 3 c ∉ [SleepAction.advance 2 0] := by
    intro c hc
    cases List.mem_singleton.mp hc
  have hentering : (fresh.run gap).phase 2 = .entering 0 := by decide
  have hwaits : (fresh.run gap).Waits 2 := by rw [Waits, hentering]; rfl
  have hall := (no_wake_lost gap [.advance 2 0] 3 true 0 hready hduring).1 rfl
  obtain ⟨u, hu, hone⟩ := (no_wake_lost gap [.advance 2 0] 3 false 0 hready hduring).2 ⟨2, hwaits⟩
  exact ⟨⟨hready, hduring, by decide, hentering⟩,
    fun u after h => hall u after (timely_of_length h), u, hu,
    fun after h => hone after (timely_of_length h)⟩

end FutexRendez

end Baton
