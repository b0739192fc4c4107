import Baton.Program.Locks

/-!
# Guards on a machine

A block leaves a task on the stack that releases its guard; the innermost such task tells which
guard a body works with. That task is carried out also when the thread panics.
-/

namespace Baton

namespace Machine

/-- Runs the body of a block if its guard was obtained. -/
def enter (me : ThreadId) (name : String) (g : Guard) (body : List Instr) (m : Machine) :
    Machine :=
  if (m.replyOf me).isRefusal then m.report me name
  else ((m.answer me (.bool true)).report me name).push me
    (body.map Task.instr ++ [.drop g, .answer .null, .report "end"])

/-- Releases a guard. -/
def drop (me : ThreadId) (g : Guard) (m : Machine) : Machine :=
  m.push me (match g with
    | .cell i => [.release (.cell i)]
    | .shared l => Task.section l (.releaseRead l) ++ [.checkDrop false]
    | .exclusive l => Task.section l (.releaseWrite l) ++ [.checkDrop true])

/-- Reports a guard that could not release its hold. -/
def checkDrop (me : ThreadId) (exclusive : Bool) (m : Machine) : Machine :=
  match m.replyOf me with
  | .fault e => m.note (.guardStuck exclusive e)
  | _ => m

/-- Answers from the list of the innermost guard. -/
def withGuard (me : ThreadId) (f : Guard → Machine → Machine) (m : Machine) : Machine :=
  match m.guard? me with
  | some g => f g m
  | none => m.answer me .noGuard

/-- Answers the guarded list. -/
def getList (me : ThreadId) (m : Machine) : Machine :=
  m.withGuard me fun g m => m.answer me (.list (m.memory.list g.place))

/-- Appends to the guarded list and answers its length. -/
def pushList (me : ThreadId) (x : Int) (m : Machine) : Machine :=
  m.withGuard me fun g m =>
    if g.canWrite then
      let xs := m.memory.list g.place ++ [x]
      { m with memory := m.memory.setList g.place xs }.answer me (.int xs.length)
    else m.answer me .readOnly

/-- Takes the last element off the guarded list. -/
def popList (me : ThreadId) (m : Machine) : Machine :=
  m.withGuard me fun g m =>
    if g.canWrite then
      let xs := m.memory.list g.place
      { m with memory := m.memory.setList g.place xs.dropLast }.answer me
        (match xs.getLast? with
          | some x => .int x
          | none => .null)
    else m.answer me .readOnly

/-- The cell that a condition is paired with. -/
def pairedCell (k : Nat) (m : Machine) : Nat := m.pairing.getD k 0

/-- Sleeps on a condition with the guard `c`, which has to be the one of the paired cell. -/
def condSleepWith (me : ThreadId) (k c : Nat) (after : List Task) (m : Machine) : Machine :=
  if m.pairedCell k = c then
    (m.answer me .null).push me (.sleepOn (.cond k) (.cell c) :: after)
  else (m.note .wrongGuard).answer me (.fault .wrongMutex)

/-- Sleeps on a condition once. -/
def condSleep (me : ThreadId) (k : Nat) (m : Machine) : Machine :=
  match m.guard? me with
  | some (.cell c) => m.condSleepWith me k c []
  | _ => m.answer me .noGuard

/-- Sleeps on a condition while a test holds. -/
def condSleepWhile (me : ThreadId) (k : Nat) (test : Test) (m : Machine) : Machine :=
  match m.guard? me with
  | some (.cell c) =>
    match test c m.memory with
    | .error text => m.panic me text
    | .ok (again, memory) =>
      let m := { m with memory }
      if again then m.condSleepWith me k c [.condSleepWhile k test] else m.answer me .null
  | _ => m.answer me .noGuard

/-- A list as diagnostics show it. -/
def describeList (xs : List Int) : String := "[" ++ String.intercalate ", " (xs.map toString) ++ "]"

/-- What diagnostics show of an object that protects a list. -/
def describeGuarded (kind data : String) : String :=
  kind ++ " \x7b data: " ++ data ++ " \x7d"

/-- Shows a cell whose mutex the reply says to be taken or not, and releases it. -/
def showCell (me : ThreadId) (c : Nat) (m : Machine) : Machine :=
  if (m.replyOf me).isRefusal then
    m.answer me (.text (describeGuarded "Mutex" (Text.quoted "<locked>")))
  else
    (m.answer me (.text (describeGuarded "Mutex" (describeList (m.memory.list (.cell c)))))).push me
      [.release (.cell c)]

/-- Shows the list of a lock, if the reply says that it could be read, and releases it. -/
def showLock (me : ThreadId) (l : LockName) (m : Machine) : Machine :=
  if (m.replyOf me).isRefusal then
    m.answer me (.text (describeGuarded "RwLock" (Text.quoted "<locked>")))
  else
    m.push me [.drop (.shared l),
      .answer (.text (describeGuarded "RwLock" (describeList (m.memory.list (.behind l)))))]

end Machine

end Baton
