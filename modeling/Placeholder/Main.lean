import Placeholder.Command.Run
import Std.Time.DateTime.Timestamp

/-! The program prints what the placeholder directives on its command line stand for. -/

namespace Placeholder.Command

/-- What the program says about its use. -/
def usage : String :=
  "\n".intercalate
    ["Generate mock values from placeholder directives such as @string(5,10)",
      "",
      "Usage: fmock [--config PATH] [--count N] [--json] [DIRECTIVE]...",
      "",
      "Arguments:",
      "  DIRECTIVE      a directive to resolve (one per line of stdin when none is given)",
      "",
      "Options:",
      "  --config PATH  YAML file with custom generator definitions [env: FMOCK_CONFIG]",
      "  --count N      number of values to generate per directive [default: 1]",
      "  --json         print every value as JSON",
      "  -h, --help     print help"]

/-- What the program says about a command line that it refuses. -/
def Refusal.message : Refusal → String
  | .help => usage
  | .unknownOption word => "unexpected argument '" ++ word ++ "'"
  | .missingValue name => "a value is required for '--" ++ name ++ "'"
  | .unneededValue name => "no value is expected for '--" ++ name ++ "'"
  | .invalidValue name value => "invalid value '" ++ value ++ "' for '--" ++ name ++ "'"
  | .repeatedOption name => "'--" ++ name ++ "' cannot be used multiple times"
  | .unexpectedDirective word => "unexpected argument '" ++ word ++ "'"

/-- The bytes of a file of the system. -/
def readFile (path : String) : IO (Except FileError ByteArray) := do
  match ← (IO.FS.readBinFile path).toBaseIO with
  | .ok bytes => return .ok bytes
  | .error (.noFileOrDirectory ..) => return .error .notFound
  -- Files in place of directories have the same kind of error under another number.
  | .error (.inappropriateType _ 21 _) => return .error .isDirectory
  | .error cause => return .error (.refused (toString cause))

/-- A source of words with a random seed. -/
def randomSource : IO Source := do
  let bytes ← IO.getRandomBytes 8
  return .ofTape #[] (bytes.toList.foldl (fun seed byte => seed * 256 + byte.toUInt64) 0)

/-- An outcome is printed and made the exit status. -/
def finish (outcome : Outcome) : IO UInt32 := do
  IO.print outcome.output
  match outcome with
  | .refusal .help => IO.println usage
  | .refusal cause => IO.eprintln ("error: " ++ cause.message)
  | .failure cause => IO.eprintln ("Error: " ++ cause.message)
  | .success _ => pure ()
  return UInt32.ofNat outcome.status

end Placeholder.Command

open Placeholder Command in
/-- The program. -/
def main (words : List String) : IO UInt32 := do
  let now ← Std.Time.Timestamp.now
  let clock : Clock := { now := now.toMillisecondsSinceUnixEpoch.toInt }
  let path ← IO.getEnv "FMOCK_CONFIG"
  match Request.ofWords path words with
  | .error cause => finish (.refusal cause)
  | .ok request =>
    let content ←
      match request.settings.config with
      | some path => readFile path
      | none => pure (.error .notFound)
    let file := fun _ => content
    -- The input is left alone when directives are given or the file is no good.
    let waits := request.directives.isEmpty && (request.settings.table file).isOk
    let input ← if waits then (← IO.getStdin).readBinToEnd else pure .empty
    finish (request.run { file, input, clock } (← randomSource)).1
