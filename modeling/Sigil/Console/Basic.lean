import Sigil.Text.Basic

/-!
The text a program writes and the lines it can read. A line whose bytes are not UTF-8 is garbled:
it is consumed, and reading it fails.
-/
namespace Sigil

inductive InputLine where
  | text (line : Text)
  | garbled
  deriving DecidableEq, Repr

structure Console where
  /-- What has been written, the latest piece first. -/
  written : List Text
  input : List InputLine
  /-- Whether a read has found no line left. -/
  starved : Bool
  deriving DecidableEq, Repr

namespace Console

def ofInput (input : List InputLine) : Console := ⟨[], input, false⟩

def notText : Text := "stream did not contain valid UTF-8".toList

def write (console : Console) (text : Text) : Console :=
  { console with written := text :: console.written }

def output (console : Console) : Text := console.written.reverse.flatten

def readLine (console : Console) : Except Text (Option Text) × Console :=
  match console.input with
  | [] => (.ok none, { console with starved := true })
  | .garbled :: rest => (.error notText, { console with input := rest })
  | .text line :: rest => (.ok (some line), { console with input := rest })

end Console

namespace InputLine

def ofBytes (bytes : ByteArray) : InputLine :=
  match String.fromUTF8? bytes with
  | some line => text (Text.dropLineEnding line.toList)
  | none => garbled

end InputLine
end Sigil
