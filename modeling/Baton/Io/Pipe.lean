import Baton.Io.Errno
import Baton.Io.Poll
import Baton.Store

/-!
# Pipes

A pipe is a row of at most sixteen pages of 4096 bytes. A write first adds to the last page the
part of it that does not fill whole pages, if that page has room for all of the part; the rest goes
to fresh pages. A read takes bytes from the front and frees the pages that it empties. Room is
counted in pages, so a pipe can be full with few bytes in it.
-/

namespace Baton

/-- The two ends of a pipe. -/
inductive PipeEnd where
  | reader | writer
  deriving DecidableEq

/-- A page of a pipe: its unread bytes, and how many bytes were read off its front. -/
structure Page where
  offset : Nat
  bytes : List UInt8
  deriving DecidableEq

/-- A pipe. -/
structure Pipe where
  pages : List Page
  readerOpen : Bool
  writerOpen : Bool
  deriving DecidableEq

namespace Pipe

/-- The bytes of a page. -/
def pageSize : Nat := 4096

/-- The pages of a pipe. -/
def maxPages : Nat := 16

/-- The bytes that fill a fresh pipe. -/
def capacity : Nat := maxPages * pageSize

/-- An empty pipe with both ends open. -/
def fresh : Pipe := ⟨[], true, true⟩

instance : Inhabited Pipe := ⟨fresh⟩

/-- The unread bytes. -/
def bytes (p : Pipe) : List UInt8 := p.pages.flatMap Page.bytes

/-- Whether an end is open. -/
def isOpen (p : Pipe) : PipeEnd → Bool
  | .reader => p.readerOpen
  | .writer => p.writerOpen

/-- Closes an end. -/
def close (p : Pipe) : PipeEnd → Pipe
  | .reader => { p with readerOpen := false }
  | .writer => { p with writerOpen := false }

/-- The first `n` bytes of a row of pages, or all of them, and the pages without them. -/
def takeBytes : Nat → List Page → List UInt8 × List Page
  | _, [] => ([], [])
  | n, page :: rest =>
    if n = 0 then ([], page :: rest)
    else if page.bytes.length ≤ n then
      let (bs, left) := takeBytes (n - page.bytes.length) rest
      (page.bytes ++ bs, left)
    else (page.bytes.take n, ⟨page.offset + n, page.bytes.drop n⟩ :: rest)

/-- Reads at most `n` bytes; `none` if there are none yet and may still come. -/
def read (n : Nat) (p : Pipe) : Option (List UInt8 × Pipe) :=
  if n = 0 then some ([], p)
  else if p.pages.isEmpty then (if p.writerOpen then none else some ([], p))
  else
    let (bs, pages) := takeBytes n p.pages
    some (bs, { p with pages })

/-- Adds `bs` to the last page if there is one with room for all of it. -/
def addToLast? (bs : List UInt8) (pages : List Page) : Option (List Page) :=
  match pages.getLast? with
  | none => none
  | some last =>
    if last.offset + last.bytes.length + bs.length ≤ pageSize then
      some (pages.dropLast ++ [{ last with bytes := last.bytes ++ bs }])
    else none

/-- Puts `bs` on at most `room` fresh pages: the pages, and the bytes that are left over. -/
def freshPages : Nat → List UInt8 → List Page × List UInt8
  | 0, bs => ([], bs)
  | room + 1, bs =>
    if bs.isEmpty then ([], [])
    else
      let (pages, left) := freshPages room (bs.drop pageSize)
      (⟨0, bs.take pageSize⟩ :: pages, left)

/-- Writes as much of `bs` as there is room for, and gives the bytes that are left over. -/
def write (bs : List UInt8) (p : Pipe) : Except Errno (List UInt8 × Pipe) :=
  if bs.isEmpty then .ok ([], p)
  else if !p.readerOpen then .error .brokenPipe
  else
    let part := bs.take (bs.length % pageSize)
    let (pages, bs) := match (if part.isEmpty then none else addToLast? part p.pages) with
      | some pages => (pages, bs.drop part.length)
      | none => (p.pages, bs)
    let (more, left) := freshPages (maxPages - pages.length) bs
    .ok (left, { p with pages := pages ++ more })

/-- The pipe after a write whose outcome does not matter. -/
def put (bs : List UInt8) (p : Pipe) : Pipe :=
  match p.write bs with
  | .ok (_, q) => q
  | .error _ => p

/-- A pipe with both ends open and no room left. -/
def filled : Pipe := fresh.put (List.replicate capacity 0)

/-- Whether there is no page left. -/
def isFull (p : Pipe) : Bool := maxPages ≤ p.pages.length

/-- What the system reports of an open end. -/
def signals (p : Pipe) (side : PipeEnd) (asked : Signals) : Signals :=
  match side with
  | .reader => { input := asked.input && !p.pages.isEmpty, hangup := !p.writerOpen }
  | .writer => { output := asked.output && !p.isFull, error := !p.readerOpen }

theorem takeBytes_fst (n : Nat) (pages : List Page) :
    (takeBytes n pages).1 = (pages.flatMap Page.bytes).take n := by
  induction pages generalizing n with
  | nil => simp [takeBytes]
  | cons page rest ih =>
    simp only [takeBytes, List.flatMap_cons]
    split
    · simp_all
    · split
      · rename_i h
        simp [ih, List.take_append, List.take_of_length_le h]
      · rename_i h
        have h0 : n - page.bytes.length = 0 := by omega
        simp [List.take_append, h0]

end Pipe

/-- A descriptor: an end of a numbered pipe, or a plain number. -/
inductive Descriptor where
  | pipe (index : Nat) (side : PipeEnd)
  | number (n : Int)
  deriving DecidableEq

/-- The pipes of a world. -/
abbrev Pipes := Store Nat Pipe

namespace Pipes

/-- The descriptor that names an end of a pipe now: a closed end has a negative number. -/
def descriptor (ps : Pipes) (index : Nat) (side : PipeEnd) : Descriptor :=
  if (ps.get index).isOpen side then .pipe index side else .number (-1)

/-- How the system answers a poll. Negative numbers are passed over; a number that is not open
and an end that has been closed since are invalid. -/
def poller (ps : Pipes) : Poller Descriptor := fun d asked =>
  match d with
  | .pipe i side =>
    let p := ps.get i
    if p.isOpen side then p.signals side asked else { invalid := true }
  | .number n => if n < 0 then .quiet else { invalid := true }

end Pipes

end Baton
