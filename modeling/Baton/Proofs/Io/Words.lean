import Baton.Io.Pipe
import Baton.Proofs.Sched.Answers

/-!
# Polls in words

The system call knows nothing of the library's conditions. An entry is a word of sixteen bits on the
way in and another one on the way out, and what the call returns is the number of entries whose word
is not zero. The library forms its count in two ways, from the number that the call returned and
from the conditions that it read off the words. They are the same as long as the system reports
nothing but what was asked for and what is always reported: of such a word no bit is lost.
-/

namespace Baton

namespace Signals

/-- The word in which the system call takes and gives conditions. -/
def word (s : Signals) : UInt16 :=
  (if s.input then 0x1 else 0) ||| (if s.urgent then 0x2 else 0) |||
    (if s.output then 0x4 else 0) ||| (if s.error then 0x8 else 0) |||
    (if s.hangup then 0x10 else 0) ||| (if s.invalid then 0x20 else 0)

/-- The conditions that are read off a word. Its other bits are not looked at. -/
def ofWord (w : UInt16) : Signals where
  input := w &&& 0x1 != 0
  urgent := w &&& 0x2 != 0
  output := w &&& 0x4 != 0
  error := w &&& 0x8 != 0
  hangup := w &&& 0x10 != 0
  invalid := w &&& 0x20 != 0

/-- The bits of errors, hangups and invalid descriptors, which are reported unasked. -/
def unasked : UInt16 := 0x38

@[simp] theorem ofWord_word (s : Signals) : ofWord s.word = s := by
  rcases s with ⟨i, u, o, e, h, v⟩
  cases i <;> cases u <;> cases o <;> cases e <;> cases h <;> cases v <;> decide

/-- The words that the library asks in. -/
theorem word_request (a : Interest) : (request a).word =
    (if a.isReadable then 0x1 else 0) ||| (if a.isWritable then 0x4 else 0) := by
  unfold request
  cases a.isReadable <;> cases a.isWritable <;> decide

/-- Below the known bits there is a condition for each. -/
theorem any_ofWord {w : UInt16} (h : w.toNat < 64) : (ofWord w).any = (w != 0) := by
  have hall : ∀ n : Fin 64, (ofWord (.ofNat n)).any = (UInt16.ofNat n != 0) := by decide
  simpa using hall ⟨w.toNat, h⟩

/-- Conditions that were asked for, and those that need not be, all have their bits in the words. -/
theorem word_and_asked {s : Signals} {a : Interest} (hurgent : s.urgent = false)
    (hinput : s.input = true → a.isReadable = true)
    (houtput : s.output = true → a.isWritable = true) :
    s.word &&& ((request a).word ||| unasked) = s.word := by
  rw [word_request]
  rcases s with ⟨i, u, o, e, h, v⟩
  dsimp only at hurgent hinput houtput
  subst hurgent
  generalize a.isReadable = readable, a.isWritable = writable at *
  revert i o e h v readable writable
  decide

/-- A bit that the library does not know would count for the system and be lost on the way out. -/
example : ofWord 0x2000 = quiet := by decide

end Signals

/-- How the system call answers for a descriptor: the word asked for, and the word reported. -/
abbrev Kernel (δ : Type) := δ → UInt16 → UInt16

namespace Kernel

variable {δ : Type} {K : Kernel δ}

/-- The word reported for an entry. What the entry held before is not passed on. -/
def reported (K : Kernel δ) (p : PollEntry δ) : UInt16 :=
  K p.descriptor (Signals.request p.events).word

/-- Nothing is reported but what was asked for and what is reported unasked. -/
def Honest (K : Kernel δ) : Prop :=
  ∀ p, K.reported p &&& ((Signals.request p.events).word ||| Signals.unasked) = K.reported p

/-- The library's poll as it goes about it: the words of all entries, the number that the call
returns, and the entries with what is read off their words. -/
def poll (K : Kernel δ) (ps : List (PollEntry δ)) : Nat × List (PollEntry δ) :=
  let raw := ps.map K.reported
  (raw.countP (· != 0),
    List.zipWith (fun p w => { p with revents := (Signals.ofWord w).interest }) ps raw)

/-- The system call with the words read as conditions. -/
def poller (K : Kernel δ) : Poller δ := fun d asked => .ofWord (K d asked.word)

/-- What an honest system reports is among the known bits. -/
theorem Honest.reported_lt (h : K.Honest) (p : PollEntry δ) : (K.reported p).toNat < 64 := by
  have hasked : ((Signals.request p.events).word ||| Signals.unasked).toNat < 64 := by
    rw [Signals.word_request]
    cases p.events.isReadable <;> cases p.events.isWritable <;> decide
  rw [← h p, UInt16.toNat_and]
  exact Nat.lt_of_le_of_lt Nat.and_le_right hasked

/-- A word of an honest system is zero only if nothing is read off it. -/
theorem Honest.any_found (h : K.Honest) (p : PollEntry δ) :
    (K.poller.found p).any = (K.reported p != 0) :=
  Signals.any_ofWord (h.reported_lt p)

/-- Every entry gets what is read off its word, and keeps the rest. -/
theorem poll_filled (K : Kernel δ) (ps : List (PollEntry δ)) : (K.poll ps).2 =
    ps.map fun p => { p with revents := (Signals.ofWord (K.reported p)).interest } := by
  show List.zipWith _ ps (ps.map K.reported) = _
  rw [List.zipWith_map_right, List.zipWith_self]

/-- What the library makes of the words of an honest system is a poll of conditions. -/
theorem Honest.poll_eq (h : K.Honest) (ps : List (PollEntry δ)) :
    K.poll ps = K.poller.poll ps := by
  refine Prod.ext ?_ (poll_filled K ps)
  show (ps.map K.reported).countP (· != 0) = ps.countP fun p => (K.poller.found p).any
  rw [List.countP_map]
  exact List.countP_congr fun p _ => by simp [h.any_found p]

end Kernel

namespace Poller

variable {δ : Type}

/-- The count of a poll is the number of entries that it found anything for. -/
theorem countP_isReady_poll (k : Poller δ) (ps : List (PollEntry δ)) :
    (k.poll ps).2.countP PollEntry.isReady = (k.poll ps).1 := by
  rw [poll, List.countP_map]
  exact List.countP_congr fun p _ => by simp

/-- The two tests for readiness agree. -/
theorem any_isReady_poll (k : Poller δ) (ps : List (PollEntry δ)) :
    (k.poll ps).2.any PollEntry.isReady = true ↔ 0 < (k.poll ps).1 := by
  rw [← countP_isReady_poll, List.countP_pos_iff, List.any_eq_true]

end Poller

namespace PollSystem

variable {δ : Type} {system : PollSystem δ} {ps : List (PollEntry δ)}

/-- A poll that succeeds has looked at the descriptors. -/
theorem exists_poller_of_poll {r : Nat × List (PollEntry δ)} (h : system.poll ps = .ok r) :
    ∃ k, system = .ok k ∧ k.poll ps = r := by
  cases system with
  | error e => cases h
  | ok k => exact ⟨k, rfl, Except.ok.inj h⟩

/-- A timeout decides only whether there is a poll. -/
theorem poll_of_pollTimed {now : Instant} {timeout : Option Span}
    {r : Except Errno (Nat × List (PollEntry δ))} (h : system.pollTimed now timeout ps = some r) :
    system.poll ps = r := by
  unfold pollTimed at h
  split at h
  · cases h
  · exact Option.some.inj h

end PollSystem

namespace Waiter

variable {δ : Type} {K : Kernel δ}

/-- A wait that succeeds is told what a poll of its own entries finds. -/
theorem exists_poller_of_answer {system : PollSystem δ} {w : Waiter δ} {ps : List (PollEntry δ)}
    (h : w.answer system = .ok ps) : ∃ k, system = .ok k ∧ (k.poll w.entries).2 = ps := by
  cases system with
  | error e => cases h
  | ok k => exact ⟨k, rfl, Except.ok.inj h⟩

/-- Whether a poll ends the wait, told by the count of the wait's own entries. -/
def isCounted (K : Kernel δ) (now : Instant) (w : Waiter δ) : Bool :=
  w.isExpired now || 0 < (K.poll w.entries).1

theorem isServed_poller (h : K.Honest) (now : Instant) (w : Waiter δ) :
    w.isServed (.ok K.poller) now = w.isCounted K now := by
  have hready : (K.poller.poll w.entries).2.any PollEntry.isReady =
      decide (0 < (K.poll w.entries).1) := by
    rw [Bool.eq_iff_iff, Poller.any_isReady_poll, h.poll_eq, decide_eq_true_iff]
  exact congrArg (w.isExpired now || ·) hready

end Waiter

namespace Kernel

variable {δ : Type} {K : Kernel δ}

/-- However a poll comes about, its count is that of its entries with anything to report. -/
structure Tallies (K : Kernel δ) : Prop where
  /-- What the entries held before has no effect. -/
  overwrites : ∀ (ps : List (PollEntry δ)) (stale : PollEntry δ → Interest),
    K.poll (ps.map fun p => { p with revents := stale p }) = K.poll ps
  fills : ∀ ps : List (PollEntry δ), (K.poll ps).2 =
    ps.map fun p => { p with revents := (Signals.ofWord (K.reported p)).interest }
  counts : ∀ ps : List (PollEntry δ), (K.poll ps).1 = (K.poll ps).2.countP PollEntry.isReady
  /-- The test of the count and the test of the entries agree. -/
  tests : ∀ ps : List (PollEntry δ),
    0 < (K.poll ps).1 ↔ (K.poll ps).2.any PollEntry.isReady = true
  /-- A poll that a caller makes for itself. -/
  direct : ∀ now timeout ps r, PollSystem.pollTimed (.ok K.poller) now timeout ps = some r →
    r = .ok (K.poll ps)
  /-- A poll that is made for all waiters. -/
  shared : ∀ (now : Instant) (ws : List (Waiter δ)),
    Waiter.settle now (Waiter.pollAll (.ok K.poller) ws) ws =
      ((ws.filter (Waiter.isCounted K now)).map fun w => (w.id, .ok (K.poll w.entries).2),
        ws.filter fun w => !w.isCounted K now)

theorem Honest.tallies (h : K.Honest) : K.Tallies where
  overwrites ps stale := by
    rw [h.poll_eq, h.poll_eq]
    simp only [Poller.poll, List.countP_map, List.map_map]
    rfl
  fills := poll_filled K
  counts ps := by rw [h.poll_eq, Poller.countP_isReady_poll]
  tests ps := by rw [h.poll_eq, Poller.any_isReady_poll]
  direct now timeout ps r hr := by
    rw [← PollSystem.poll_of_pollTimed hr, h.poll_eq]
    rfl
  shared now ws := by
    have hserved : Waiter.isServed (.ok K.poller) now = Waiter.isCounted K now :=
      funext fun w => Waiter.isServed_poller h now w
    have hanswer : ∀ w : Waiter δ, w.answer (.ok K.poller) = .ok (K.poll w.entries).2 := by
      intro w
      rw [h.poll_eq]
      rfl
    simp only [Waiter.settle_pollAll, hserved, hanswer]

end Kernel

namespace Pipes

/-- The pipes as the system call sees them. -/
def kernel (ps : Pipes) : Kernel Descriptor := fun d asked => (ps.poller d (.ofWord asked)).word

theorem poller_kernel (ps : Pipes) : ps.kernel.poller = ps.poller := by
  funext d asked
  simp [Kernel.poller, kernel]

/-- Pipes report nothing but what was asked for, errors, hangups and invalid descriptors. -/
theorem honest_kernel (ps : Pipes) : ps.kernel.Honest := by
  intro p
  have hreported : ps.kernel.reported p =
      (ps.poller p.descriptor (Signals.request p.events)).word := by
    simp [Kernel.reported, kernel]
  rw [hreported]
  rcases p with ⟨d, events, -⟩
  cases d with
  | number n =>
      dsimp only [poller]
      split <;> exact Signals.word_and_asked rfl nofun nofun
  | pipe i side =>
      dsimp only [poller]
      split
      · cases side <;> refine Signals.word_and_asked rfl ?_ ?_ <;>
          simp +contextual [Pipe.signals, Signals.request]
      · exact Signals.word_and_asked rfl nofun nofun

end Pipes

end Baton
