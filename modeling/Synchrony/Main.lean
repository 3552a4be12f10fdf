import Mathlib.Tactic.DeprecateTo
import Synchrony.Service.Startup

/-!
# The command

Starts the service from the environment and serves requests from standard input, one to a line: a
method, a target, and a JSON body if there is one. Each response is one line of JSON with its status
and body. Log lines go to standard error, under the time of the clock on the wall (`Std.Time`, which
`Mathlib.Tactic.DeprecateTo` brings along).
-/

set_option autoImplicit false

namespace Synchrony.Command

/-- The settings that the environment gives, by the names that it gives them under. -/
def environment : IO (List (String × String)) := do
  let names := Settings.names.map fun name => "sync_" ++ name
  let spellings := names ++ names.map Text.upper
  spellings.filterMapM fun name => do
    return (← IO.getEnv name).map fun value => (name, value)

/-- What a path leads to. A directory can be opened but not read. -/
def found (path : String) : IO Found := do
  try
    let bytes ← IO.FS.readBinFile path
    return .file (bytes.toList.map UInt8.toNat)
  catch _ =>
    try
      let _ ← IO.FS.Handle.mk path .read
      return .directory
    catch
      | .inappropriateType .. => return .notDirectory
      | _ => return .missing

/-- The present moment in seconds since the epoch. -/
def present : IO Numeric := do
  let nanos := (← Std.Time.Timestamp.now).toNanosecondsSinceUnixEpoch.val
  return .float (.nearest (nanos < 0) (nanos.natAbs * Binary64.unitsPerOne) (tenTo 9))

/-- Show log records on the console. -/
def logAll (console : Log.Console) (records : List Log.Record) : IO Unit := do
  let created ← present
  for record in records do
    match console.show? (record.entry created) with
    | some line => IO.eprintln line
    | none => pure ()

/-- A response as a line of JSON. -/
def responseLine (response : Response) : String :=
  Json.line (.record [("status", .int response.status), ("body", response.body.getD .null)])

/-- More reactions than any run should need. -/
def patience : Nat := tenTo 12

/-- Serve requests until the input ends. -/
partial def serve (console : Log.Console) (engine : Engine Society)
    (input : IO.FS.Stream) (state : Society) : IO Unit := do
  let line ← input.getLine
  unless line.isEmpty do
    match engine.reply patience (.ofLine line) state with
    | .error e =>
      IO.eprintln (Log.failureText e)
      serve console engine input state
    | .ok exchange =>
      logAll console exchange.records
      IO.println (responseLine (exchange.answer.getD { status := 500 }))
      serve console engine input exchange.state

/-- Start and serve, or say why not. -/
def run (settings : Settings) : IO UInt32 := do
  let content ← match settings.rulePath? with
    | some path => found path
    | none => pure .missing
  let started := do
    let console ← settings.console {}
    let startup ← settings.start fun _ => content
    pure (console, startup)
  match started with
  | .error e =>
    IO.eprintln (Log.failureText e)
    return 1
  | .ok (console, startup) =>
    logAll console startup.records
    let firstHex ← IO.rand 1 (twoTo 62)
    serve console startup.engine (← IO.getStdin) { supply := { nextHex := firstHex } }
    return 0

end Synchrony.Command

open Synchrony in
/-- Load the settings, start the service and serve. -/
def main : IO UInt32 := do
  let file ← Command.found ".env"
  match Settings.load [] (← Command.environment) fun _ => file with
  | .error (.complaints complaints) =>
    for (name, complaint) in complaints do
      IO.eprintln (name ++ ": " ++ complaint.message)
    return 1
  | .error (.failure e) =>
    IO.eprintln (Log.failureText e)
    return 1
  | .ok settings => Command.run settings
