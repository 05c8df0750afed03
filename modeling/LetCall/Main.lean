import LetCall.Command
import Std.Time.DateTime.Timestamp

/-!
# LetCall.Main

The command: it looks up the path that the command line names, asks the clock for the
time, follows the command line, and writes what came of it.
-/

namespace LetCall.Command

/-- What stands under a path of the file system. -/
def readEntry (path : String) : IO Entry := do
  match ← (IO.FS.readBinFile path).toBaseIO with
  | .ok bytes => return .file bytes.toList
  | .error (.inappropriateType _ 21 _) => return .directory
  | .error (.invalidArgument _ _ "name too long") => return .nameTooLong (plainPath path)
  | .error _ => return .missing

/-- The seconds since the first of January 1970. -/
def secondsNow : IO Float := do
  let now ← Std.Time.Timestamp.now
  return Float.ofInt now.toNanosecondsSinceUnixEpoch.val / 1000000000.0

end LetCall.Command

open LetCall

/-- Follow a command line; the status is that of the program it runs. -/
def main (argv : List String) : IO UInt32 := do
  let entry ← (Command.path? argv).elim (pure .missing) Command.readEntry
  match Command.run (fun _ => entry) argv { now := .float (← Command.secondsNow) } with
  | .ok outcome world =>
    IO.print world.output
    return outcome.status.toUInt32
  | .error e world =>
    IO.print world.output
    e.messages.forM IO.eprintln
    return 1
