import Baton.Registry
import Baton.Workload.Queue

/-!
# The demonstration

The command registers the backend that the environment names and works through three scenes: a
table with writers and readers, a queue between two threads, and a transfer through a pipe. It
shows a few lines of each, and ends with an error if nothing could be registered.
-/

namespace Baton

namespace Demo

/-- What the command wrote, and its exit code. -/
structure Result where
  code : Nat
  /-- The lines on standard output. -/
  output : List String
  /-- The process at the end, with its log. -/
  process : Registry

/-- The table of the first scene. -/
def table : LockName := .table 0

/-- The variable that counts the reads of the first scene. -/
def readsVar : Nat := 100

/-- How many rows are in the table. -/
def rows (m : Memory) : Nat := (m.list (.behind table)).length

/-- The code of a writer of the first scene. -/
def writer (w : Nat) : List Instr :=
  ((List.range 5).flatMap fun (i : Nat) =>
    [.scope (.write table) [.push (w * 100 + i)], .yield]) ++
  [.say .debug fun _ _ => "[writer " ++ toString w ++ "] done"]

/-- The code of a reader of the first scene. -/
def reader (r : Nat) : List Instr :=
  (List.replicate 5 [
    .scope (.read table)
      [.say .debug fun _ m => "[reader " ++ toString r ++ "] sees " ++ toString (rows m) ++ " rows",
       .update fun _ m => m.setVar readsVar (m.var readsVar + 1)],
    .yield]).flatten

/-- The code of the consumer of the second scene. -/
def consumer : List Instr :=
  Queue.consumer 1 .steady ++
  [.say .info fun _ m => "[consumer] sum = " ++ toString (m.var Queue.sumVar),
   .print fun _ m => "consumer summed " ++ toString (m.var Queue.sumVar)]

/-- What is sent through the pipe in the third scene. -/
def message : String := "hello through the backend"

/-- A line of standard output that does not depend on the state. -/
def line (s : String) : Instr := .print fun _ _ => s

/-- The first scene: two writers and three readers. -/
def tableScene : List Instr :=
  [line "", line "-- reader/writer lock --"] ++
  (List.range 5).map (fun i => .spawn (i + 1)) ++
  (List.range 5).map (fun i => .join (Balanced.spawned i)) ++
  [.scope (.read table) [.print fun _ m =>
    toString (rows m) ++ " rows written, " ++ toString (m.var readsVar) ++ " reads"]]

/-- The second scene: ten items through a queue. -/
def queueScene : List Instr :=
  [line "", line "-- rendezvous --", .spawn 6] ++
  Queue.paced 0 (.afterItems 10)
    (Queue.producer 0 (.afterItems 10) ((List.range 10).map fun (i : Nat) => (i : Int) + 1)) ++
  [.join (Balanced.spawned 5)]

/-- The line about what was read from the pipe. -/
def readLine : Reply → String
  | .text s => "read " ++ toString s.utf8ByteSize ++ " bytes: " ++ s
  | _ => ""

/-- The third scene: a read that gives way to the writer. -/
def pipeScene : List Instr :=
  [line "", line "-- yielding I/O --", .spawn 7, .transfer (.read 0 64),
   .print fun r _ => readLine r, .join (Balanced.spawned 6)]

/-- The program of the three scenes. -/
def program (idlePoll : Span) : Program where
  host := .coop
  code := [tableScene ++ queueScene ++ pipeScene, writer 0, writer 1, reader 0, reader 1, reader 2,
    consumer, [.transfer (.write 0 (Text.Utf8.encode message.toList))]]
  cells := [[]]
  conds := [Queue.cell]
  tables := [[]]
  wakeups := []
  idlePoll

/-- Whether a backend shows the notice: the scheduler's own ones appear on the cooperative one. -/
def shows (kind : BackendKind) : Notice → Bool
  | .said .. => true
  | _ => kind == .coop

/-- Runs the command. The scenes run on one scheduler whatever the backend, since their lines on
standard output do not depend on it. -/
def run (env : Environment) : Result :=
  let title := ["=== syncport Basic Example ===", ""]
  match (Registry.fresh env).installFromEnvironment with
  | (.error e, p) =>
    ⟨1, title, p.log .error ("cannot register backend: " ++ e.message)⟩
  | (.ok d, p) =>
    let r := (program (Settings.ofEnvironment env).idlePoll).run Program.patience
    ⟨0, title ++ ["Backend: " ++ d.backend.name] ++ r.output ++
      ["", "=== Example Complete ==="], p.record (r.notices.filter (shows d.backend))⟩

end Demo

end Baton
