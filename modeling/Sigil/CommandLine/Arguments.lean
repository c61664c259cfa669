import Sigil.Settings

/-!
The arguments of the command line. A program comes from a file or as text, never both; the nesting
depth is optional. A value stands in the next argument, after an equals sign, or right behind a short
option; an argument that starts with a dash and is more than a dash is never a value of its own.
-/
namespace Sigil.CommandLine

inductive Flag where
  | file
  | inline
  | depth
  deriving DecidableEq, Repr

inductive Argument where
  | option (flag : Flag) (attached : Option Text)
  | help
  | terminator
  | plain
  | unknown
  deriving DecidableEq, Repr

inductive UsageFault where
  | unexpected (argument : Text)
  | missingValue (flag : Flag)
  | repeated (flag : Flag)
  | invalidValue (flag : Flag) (value : Text)
  | noProgram
  | twoPrograms
  deriving DecidableEq, Repr

def Flag.long : Flag → Text
  | file => "file".toList
  | inline => "inline".toList
  | depth => "max-call-depth".toList

def Flag.ofLong? (name : Text) : Option Flag := [file, inline, depth].find? fun flag => flag.long == name

def Flag.ofShort? : Char → Option Flag
  | 'f' => some file
  | 'i' => some inline
  | _ => none

def Argument.ofLong (text : Text) : Argument :=
  let name := text.takeWhile (· != '=')
  let attached := match text.dropWhile (· != '=') with
    | [] => none
    | _ :: value => some value
  match Flag.ofLong? name, attached with
  | some flag, _ => .option flag attached
  | none, none => if name = "help".toList then .help else .unknown
  | none, some _ => .unknown

def Argument.ofShort (letter : Char) (rest : Text) : Argument :=
  match Flag.ofShort? letter with
  | some flag =>
    match rest with
    | [] => .option flag none
    | '=' :: value => .option flag (some value)
    | value => .option flag (some value)
  | none => if letter = 'h' then .help else .unknown

def Argument.ofText : Text → Argument
  | ['-', '-'] => .terminator
  | '-' :: '-' :: text => .ofLong text
  | '-' :: letter :: rest => .ofShort letter rest
  | _ => .plain

structure Options where
  file : Option Text
  inline : Option Text
  depth : Option Nat
  deriving DecidableEq, Repr

namespace Options

def none : Options := ⟨.none, .none, .none⟩

def set (options : Options) (flag : Flag) (value : Text) : Except UsageFault Options :=
  match flag with
  | .file =>
    if options.file.isSome then .error (.repeated flag)
    else if value.isEmpty then .error (.invalidValue flag value)
    else .ok { options with file := some value }
  | .inline =>
    if options.inline.isSome then .error (.repeated flag)
    else .ok { options with inline := some value }
  | .depth =>
    if options.depth.isSome then .error (.repeated flag)
    else match Numeral.readCount value with
      | some depth => .ok { options with depth := some depth }
      | .none => .error (.invalidValue flag value)

end Options

structure Pending where
  flag : Flag
  value : Option Text
  deriving DecidableEq, Repr

def settle (options : Options) : Option Pending → Except UsageFault Options
  | none => .ok options
  | some ⟨flag, none⟩ => .error (.missingValue flag)
  | some ⟨flag, some value⟩ => options.set flag value

/-- Reads the arguments from the left. An option is settled when the next one starts; the answer is
none when help is asked for before any fault. -/
def scan : List Text → Options → Option Pending → Except UsageFault (Option Options)
  | [], options, pending => (settle options pending).map some
  | text :: rest, options, pending =>
    match Argument.ofText text with
    | .unknown => .error (.unexpected text)
    | .help => (settle options pending).map fun _ => none
    | .terminator =>
      match rest with
      | [] => (settle options pending).map some
      | extra :: _ => .error (.unexpected extra)
    | .option flag none =>
      match settle options pending with
      | .ok settled => scan rest settled (some ⟨flag, none⟩)
      | .error fault => .error fault
    | .option flag (some value) =>
      match settle options pending with
      | .ok settled =>
        match settled.set flag value with
        | .ok options => scan rest options none
        | .error fault => .error fault
      | .error fault => .error fault
    | .plain =>
      match pending with
      | some ⟨flag, none⟩ => scan rest options (some ⟨flag, some text⟩)
      | _ => .error (.unexpected text)

inductive Program where
  | file (path : Text)
  | inline (source : Text)
  deriving DecidableEq, Repr

inductive Request where
  | help
  | run (program : Program) (depth : Option Nat)
  deriving DecidableEq, Repr

def Options.request (options : Options) : Except UsageFault Request :=
  match options.file, options.inline with
  | some path, .none => .ok (.run (.file path) options.depth)
  | .none, some source => .ok (.run (.inline source) options.depth)
  | some _, some _ => .error .twoPrograms
  | .none, .none => .error .noProgram

def parse (arguments : List Text) : Except UsageFault Request :=
  match scan arguments Options.none none with
  | .ok (some options) => options.request
  | .ok none => .ok .help
  | .error fault => .error fault

end Sigil.CommandLine
