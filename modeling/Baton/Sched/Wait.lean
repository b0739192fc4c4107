import Baton.Ident
import Baton.Io.Poll

/-!
# Waiting for descriptors

Threads that wait for descriptors are served by one poll over the entries of all of them. A waiter
is done when the poll fails, when one of its own entries is ready, or when its deadline has passed;
it then gets exactly its own entries. The others keep waiting, in the same order and with the
entries that they came with.
-/

namespace Baton

/-- A thread that waits for descriptors. -/
structure Waiter (δ : Type) where
  id : ThreadId
  entries : List (PollEntry δ)
  deadline : Option Instant

/-- What a waiter is told: its entries filled in, or the error of the poll. -/
abbrev Delivery (δ : Type) := Except Errno (List (PollEntry δ))

namespace Waiter

variable {δ : Type}

/-- The entries of all waiters, in order. -/
def entriesOfAll (ws : List (Waiter δ)) : List (PollEntry δ) := ws.flatMap Waiter.entries

/-- Whether the deadline has passed. -/
def isExpired (now : Instant) (w : Waiter δ) : Bool :=
  match w.deadline with
  | some d => d.reached now
  | none => false

/-- How long a poll may wait: at most `longest`, and not beyond any deadline. -/
def patience (now : Instant) (longest : Span) (ws : List (Waiter δ)) : Span :=
  ws.foldl (fun d w => match w.deadline with
    | some deadline =>
      if (deadline.remaining now).nanos < d.nanos then deadline.remaining now else d
    | none => d) longest

/-- One poll of the system over the entries of all waiters. -/
def pollAll (system : PollSystem δ) (ws : List (Waiter δ)) : Delivery δ :=
  (system.poll (entriesOfAll ws)).map (·.2)

/-- Shares the outcome of a poll among the waiters: what is delivered to whom, and who keeps
waiting. -/
def settle (now : Instant) (outcome : Delivery δ) :
    List (Waiter δ) → List (ThreadId × Delivery δ) × List (Waiter δ)
  | [] => ([], [])
  | w :: ws =>
    let mine := outcome.map (List.take w.entries.length)
    let (delivered, pending) := settle now (outcome.map (List.drop w.entries.length)) ws
    let done := match mine with
      | .error _ => true
      | .ok ps => w.isExpired now || ps.any PollEntry.isReady
    if done then ((w.id, mine) :: delivered, pending) else (delivered, w :: pending)

end Waiter

end Baton
