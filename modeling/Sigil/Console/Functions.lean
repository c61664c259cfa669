import Sigil.Console.Basic
import Sigil.Registry.Basic

/-!
The module `std`: printing a line and reading one.
-/
namespace Sigil.Console

def moduleName : Text := "std".toList

def spaced : List Text → Text
  | [] => []
  | [text] => text
  | text :: rest => text ++ ' ' :: spaced rest

def printLine : HostFunction Console where
  arity := .variadic 0
  call args console := (.ok (.str []), console.write (spaced (args.map Value.text) ++ ['\n']))

def promptLine : HostFunction Console where
  arity := .fixed 1
  call args console :=
    let prompt := (args.head?.map Value.text).getD []
    match (console.write prompt).readLine with
    | (.ok (some line), after) => (.ok (.str line), after)
    | (.ok none, after) => (.error "end of input while reading a line".toList, after)
    | (.error message, after) => (.error message, after)

def setup (functions : Module Console) : Module Console :=
  (functions.insert "print".toList printLine).insert "input".toList promptLine

def catalog : Catalog Console := Table.empty.insert moduleName setup

end Sigil.Console
