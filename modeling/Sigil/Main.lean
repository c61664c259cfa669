import Sigil.CommandLine.Session

/-!
The command line program: it reads the arguments, the environment, a file and the standard input, and
writes what the machine writes.
-/
namespace Sigil.CommandLine

def faultOfCode (code : UInt32) (details : String) : AccessFault :=
  match min code.toNat (-code).toNat with
  | 2 => .absent
  | 13 => .denied
  | 20 => .notDirectory
  | 21 => .isDirectory
  | 36 => .nameTooLong
  | number => .other ((details.capitalize ++ " (os error ").toList ++ Numeral.writeNat number ++ [')'])

def faultOf : IO.Error → AccessFault
  | .noFileOrDirectory _ code details => faultOfCode code details
  | .inappropriateType _ code details => faultOfCode code details
  | .permissionDenied _ code details => faultOfCode code details
  | .invalidArgument _ code details => faultOfCode code details
  | .resourceExhausted _ code details => faultOfCode code details
  | .noSuchThing _ code details => faultOfCode code details
  | other => .other (toString other).toList

def sourceOfFile (path : Text) : IO (Except AccessFault Text) := do
  match ← (IO.FS.readBinFile (String.ofList path)).toBaseIO with
  | .ok bytes => return sourceOfBytes bytes
  | .error error => return .error (faultOf error)

partial def nextLine (input : IO.FS.Stream) (taken : ByteArray) : IO ByteArray := do
  let byte ← input.read 1
  if byte.isEmpty then return taken
  if byte[0]? == some 10 then return taken ++ byte
  nextLine input (taken ++ byte)

/-- Steps the machine to its end. A step that finds no input line is taken again once there is one;
`shown` counts the characters that earlier attempts have written. -/
partial def drive (input output : IO.FS.Stream) (shown : Nat) (machine : Machine Console) :
    IO (Except Report Unit) := do
  let (result, after) := machine.step
  output.putStr (String.ofList (after.world.output.drop shown))
  output.flush
  let line ← if after.world.starved then nextLine input ByteArray.empty else pure ByteArray.empty
  if !line.isEmpty then
    let world := { machine.world with input := machine.world.input ++ [InputLine.ofBytes line] }
    drive input output after.world.output.length { machine with world }
  else match result with
    | .error report => return .error report
    | .ok .running => drive input output 0 { after with world := Console.ofInput after.world.input }
    | .ok _ => return .ok ()

def runSource (name source : Text) (settings : Settings) : IO UInt32 := do
  let result ← match start source settings [] with
    | .ok machine => drive (← IO.getStdin) (← IO.getStdout) 0 machine
    | .error report => pure (.error report)
  if let .error report := result then
    IO.eprint (plainReport name (Diagnostic.ofFailure source report.failure))
  return exitCode result

def runRequest (program : Program) (depth : Option Nat) : IO UInt32 := do
  let environment ← IO.getEnv Settings.depthVariable
  let settings := settings depth (environment.map String.toList)
  match program with
  | .inline source => runSource "<inline>".toList source settings
  | .file path =>
    match ← sourceOfFile path with
    | .ok source => runSource path source settings
    | .error fault =>
      IO.eprintln (fault.message path)
      return failure

end Sigil.CommandLine

open Sigil.CommandLine in
def main (arguments : List String) : IO UInt32 := do
  match parse (arguments.map String.toList) with
  | .error fault =>
    IO.eprintln ("error: " ++ fault.message)
    return misuse
  | .ok .help =>
    IO.print helpText
    return success
  | .ok (.run program depth) => runRequest program depth
