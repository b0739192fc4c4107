import Baton.Workload.Demo

/-!
# The command

Reads the variables of the environment, runs the demonstration, and writes its lines.
-/

namespace Baton

/-- The variables that the command looks at. -/
def variableNames : List String :=
  ["SP_BACKEND", "SP_MUTEX_SPINS", "SP_IDLE_POLL_MS", "SP_DEBUG", "SP_LOG_LEVEL",
    "SP_FLUSH_EPRINT", "SP_LOG_TIME"]

/-- A span in milliseconds with three decimals, set to the right in ten places. -/
def timeStamp (d : Span) : String :=
  let decimals := toString (d.nanos / 1000 % 1000)
  let text := toString (d.nanos / 1000000) ++ "." ++
    String.ofList (List.replicate (3 - decimals.length) '0') ++ decimals
  String.ofList (List.replicate (10 - text.length) ' ') ++ text

end Baton

open Baton in
/-- Runs the command. -/
def main : IO UInt32 := do
  let begin ← IO.monoNanosNow
  let bindings ← variableNames.filterMapM fun name => do
    return (← IO.getEnv name).map fun value => (name, value.toUTF8.toList)
  let result := Demo.run ⟨bindings⟩
  for l in result.output do
    IO.println l
  let stamp := timeStamp ⟨(← IO.monoNanosNow) - begin⟩
  for l in result.process.logger.output stamp do
    IO.eprintln l
  return UInt32.ofNat result.code
