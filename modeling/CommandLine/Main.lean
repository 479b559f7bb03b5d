import CommandLine.Host
import CommandLine.Manifest.Decode

/-!
# The command

Reads the manifest that the arguments name, and ends as `Host.run` says.
-/

namespace CommandLine.Host

/-- The text of a file, or why it cannot be read. -/
def readText (path : String) : IO (Except String String) := do
  try return .ok (← IO.FS.readFile path)
  catch e => return .error (toString e)

end CommandLine.Host

open CommandLine

/-- Runs the host on the arguments of the process. -/
def main (args : List String) : IO UInt32 := do
  match Host.options? false none args with
  | none =>
    IO.eprint Host.usage
    return 2
  | some options =>
    let source ← Host.readText options.manifest
    let outcome := Host.run Manifest.decode? options.manifest source options.args options.raw
    IO.print outcome.stdout
    IO.eprint outcome.stderr
    return outcome.code
