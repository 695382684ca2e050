import RailBus.CommandLine.Execute

/-!
# The program

Reads the environment and the files that a command may look at, and prints what the command gives.
-/

namespace RailBus.Program

def variableNames : List String :=
  ["BIDIB_CONFIG", "BIDIB_MAX_PACKET_SIZE", "BIDIB_FLUSH_INTERVAL_MS", "BIDIB_RECEIVE_POLL_MS",
   "BIDIB_DEFAULT_CREDIT", "BIDIB_HONOR_REPORTED_CAPACITY", "BIDIB_HANDSHAKE",
   "BIDIB_HANDSHAKE_TIMEOUT_MS"]

def settings : IO (List (String × Bytes)) :=
  variableNames.filterMapM fun name => do
    return (← IO.getEnv name).map fun text => (name, text.toUTF8.toList)

/-- The files a command names. -/
def paths : Command → List String
  | .encode .. => []
  | .decode _ file _ | .replay _ file | .config file => file.toList

def fileError (e : IO.Error) : FileError :=
  match e with
  | .noFileOrDirectory .. => .missing
  | .inappropriateType .. => .directory
  | e => .other (toString e)

def look (path : String) : IO (Except FileError Bytes) := do
  try
    return .ok (← IO.FS.readBinFile path).toList
  catch e => return .error (fileError e)

def environment (c : Command) : IO Environment := do
  let e : Environment := { settings := ← settings }
  let found ← (paths c ++ (e.lookup? "BIDIB_CONFIG").toList).mapM fun path =>
    return (path, ← look path)
  return { e with fileBytes := fun path => (found.lookup path).getD (.error .missing) }

def run (args : List String) : IO UInt32 := do
  match Command.ofArguments args with
  | .error e =>
    IO.eprintln s!"error: {e.name}"
    return if e = .displayHelp ∨ e = .displayVersion then 0 else 2
  | .ok c =>
    match c.execute (← environment c) with
    | .ok text =>
      IO.println text
      return 0
    | .error e =>
      IO.eprintln s!"error: {e.message}"
      return 1

end RailBus.Program

def main (args : List String) : IO UInt32 := RailBus.Program.run args
