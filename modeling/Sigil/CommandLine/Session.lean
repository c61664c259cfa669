import Sigil.CommandLine.Arguments
import Sigil.Console.Functions
import Sigil.Diagnostic
import Sigil.Machine.Step

/-!
What the command line does around a run: the source text, the settings, the machine, and the exit code.
-/
namespace Sigil.CommandLine

def helpText : String :=
  "Run a SICL program from a file or inline text\n\n" ++
  "Usage: sicl [OPTIONS] <--file <FILE>|--inline <INLINE>>\n\n" ++
  "Options:\n" ++
  "  -f, --file <FILE>                      Program file to run\n" ++
  "  -i, --inline <INLINE>                  Program text to run\n" ++
  "      --max-call-depth <MAX_CALL_DEPTH>  Deepest allowed nesting of calls inside call arguments\n" ++
  "  -h, --help                             Print help\n"

def UsageFault.message : UsageFault → String
  | unexpected argument => "unexpected argument '" ++ String.ofList argument ++ "' found"
  | missingValue flag => "a value is required for '--" ++ String.ofList flag.long ++ "' but none was supplied"
  | repeated flag => "the argument '--" ++ String.ofList flag.long ++ "' cannot be used multiple times"
  | invalidValue flag value =>
    "invalid value '" ++ String.ofList value ++ "' for '--" ++ String.ofList flag.long ++ "'"
  | noProgram => "a program is required: give '--file' or '--inline'"
  | twoPrograms => "the argument '--file' cannot be used with '--inline'"

def settings (depth : Option Nat) (environment : Option Text) : Settings :=
  match depth with
  | some depth => Settings.withDepth depth
  | none => Settings.ofEnvironment environment

inductive AccessFault where
  | absent
  | denied
  | notDirectory
  | isDirectory
  | nameTooLong
  | notText
  | other (reason : Text)
  deriving DecidableEq, Repr

def AccessFault.reason : AccessFault → Text
  | absent => "No such file or directory (os error 2)".toList
  | denied => "Permission denied (os error 13)".toList
  | notDirectory => "Not a directory (os error 20)".toList
  | isDirectory => "Is a directory (os error 21)".toList
  | nameTooLong => "File name too long (os error 36)".toList
  | notText => Console.notText
  | other reason => reason

def AccessFault.message (path : Text) (fault : AccessFault) : String :=
  "Failed to access " ++ String.ofList path ++ ": " ++ String.ofList fault.reason

def sourceOfBytes (bytes : ByteArray) : Except AccessFault Text :=
  match String.fromUTF8? bytes with
  | some source => .ok source.toList
  | none => .error .notText

def start (source : Text) (settings : Settings) (input : List InputLine) : Except Report (Machine Console) :=
  Machine.load source settings Console.catalog.load (Console.ofInput input)

def success : UInt32 := 0

def failure : UInt32 := 1

def misuse : UInt32 := 2

def exitCode : Except Report Unit → UInt32
  | .ok () => success
  | .error _ => failure

def plainReport (name : Text) (diagnostic : Diagnostic) : String :=
  Diagnostic.code ++ "\n\n  " ++ diagnostic.summary ++ "\n  in " ++ String.ofList name ++ ", "
    ++ diagnostic.label ++ "\n"
    ++ (diagnostic.help.map fun help => "  help: " ++ help ++ "\n").getD ""

end Sigil.CommandLine
