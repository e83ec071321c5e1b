import Workshare.Console
import Workshare.Node

namespace Workshare.Program

def name : String :=
  "workshare"

/-- How requests are served; `since` is when the last one was answered. -/
partial def serve (input output : IO.FS.Stream) (n : NodeId) (c : Cluster) (count since : Nat) : IO Unit := do
  let line ← input.getLine
  if line.isEmpty then return
  let idle := (← IO.monoMsNow) - since
  let c := (c.pass idle).drain
  let (next, response) := c.http n ⟨"work-" ++ toString count⟩ (Console.readRequest line)
  IO.sleep (next.now - c.now).toUInt32
  match response with
  | some (.ok r) => output.putStrLn (Console.writeResponse r)
  | some (.error abort) => IO.eprintln abort.text
  | none => pure ()
  output.flush
  serve input output n next (count + 1) (← IO.monoMsNow)

end Workshare.Program

open Workshare in
def main (args : List String) : IO UInt32 := do
  match CommandLine.read args with
  | .error e =>
    for line in CommandLine.complaint Program.name e do
      IO.eprintln line
    return 1
  | .ok settings =>
    match settings.cluster with
    | .error abort =>
      IO.eprintln abort.text
      return 101
    | .ok c =>
      Program.serve (← IO.getStdin) (← IO.getStdout) settings.id c 1 (← IO.monoMsNow)
      return 0
