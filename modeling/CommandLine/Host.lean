import CommandLine.Help
import CommandLine.Manifest.Build
import CommandLine.Registry.Parse
import CommandLine.Registry.Read
import CommandLine.Report

/-!
# The host program

The host reads a manifest, parses a command line against it, and reports the values. Its outcome
is an exit code and what it writes: code 0 with the report or the help text, code 2 when the
command line is refused, code 1 when there is no manifest to parse against, and code 101 when it is
stopped because the manifest asks for more room than there can be. How a text is decoded to a
manifest is left open: the decoder is a parameter.
-/

namespace CommandLine.Host

/-- How a run ends: the exit code, and the texts on the two outputs. -/
structure Outcome where
  code : UInt32
  stdout : String := ""
  stderr : String := ""
  deriving DecidableEq

/-- A run without a registry: what failed, and why. -/
def failed (message cause : String) : Outcome where
  code := 1
  stderr := "Error: " ++ message ++ "\n\nCaused by:\n    " ++ cause ++ "\n"

/-- A run that is stopped on the spot. What is said about it then does not come from the host. -/
def stopped : Outcome where
  code := 101

/-- Why a text is not a manifest, in words. -/
def unreadable : Manifest.Unreadable → String
  | .malformed => "the document is malformed"
  | .invalid reason => reason.message

/-- The registry of a manifest, given its text or why it could not be read. -/
def load (decode : String → Option Manifest) (path : String) (source : Except String String) :
    Except Outcome Registry :=
  match source with
  | .error reason => .error (failed ("Failed to read manifest " ++ path) reason)
  | .ok text =>
    match Manifest.accept (decode text) with
    | .error reason => .error (failed ("Failed to parse manifest " ++ path) (unreadable reason))
    | .ok manifest =>
      match manifest.build 1 with
      | .error (.refused e) => .error (failed e.context e.cause)
      | .error (.stopped _) => .error stopped
      | .ok r => .ok r

/-- Parses a command line and shows the values. A refusal is followed by the help text, unless the
parse has shown it already because the command line is empty. -/
def respond (r : Registry) (args : List String) (raw : Bool) : Outcome :=
  let written := r.parseOutput args
  match r.parse args with
  | (r', .error _) =>
    let (text, r'') := r'.lastError
    let complaint := "error: " ++ text.getD "" ++ "\n"
    { code := 2
      stderr := written ++ complaint ++
        if r''.lastErrorKind = some .noArguments then "" else r''.help }
  | (r', .ok ()) =>
    if r'.isHelpRequested then { code := 0, stderr := written ++ r'.help }
    else { code := 0, stdout := r'.report raw ++ "\n", stderr := written }

/-- A whole run of the host. -/
def run (decode : String → Option Manifest) (path : String) (source : Except String String)
    (args : List String) (raw : Bool) : Outcome :=
  match load decode path source with
  | .error outcome => outcome
  | .ok r => respond r args raw

/-! ## Options of the host itself -/

/-- What the host is asked to do. -/
structure Options where
  manifest : String
  args : List String := []
  raw : Bool := false
  deriving DecidableEq

/-- The levels of log output that can be asked for; the host writes no log. -/
def logLevels : List String := ["debug", "normal", "quiet"]

/-- Reads the host's own arguments up to `--`; those after it are for the manifest. -/
def options? (raw : Bool) (manifest : Option String) : List String → Option Options
  | [] => manifest.map fun path => { manifest := path, raw := raw }
  | "--" :: args => manifest.map fun path => { manifest := path, args := args, raw := raw }
  | "--raw" :: rest => if raw then none else options? true manifest rest
  | "--log-level" :: level :: rest =>
    if logLevels.contains level then options? raw manifest rest else none
  | path :: rest =>
    if startsWithDash path || manifest.isSome then none else options? raw (some path) rest

/-- How the host is called. -/
def usage : String :=
  "Usage: command-line [--raw] [--log-level debug|normal|quiet] MANIFEST [-- ARGS...]\n"

end CommandLine.Host
