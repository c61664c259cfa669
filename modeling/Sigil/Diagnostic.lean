import Sigil.Report

/-!
A failure shown against the program as the user wrote it: the span of the line in UTF-8 bytes.
-/
namespace Sigil

structure Span where
  offset : Nat
  length : Nat
  deriving DecidableEq, Repr

namespace Span

def pieces : Text → List Text
  | [] => []
  | c :: rest =>
    if c = '\n' then [c] :: pieces rest
    else match pieces rest with
      | [] => [[c]]
      | piece :: more => (c :: piece) :: more

def ofLine (source : Text) (line : Nat) : Span :=
  match line with
  | 0 => ⟨source.utf8Size, 0⟩
  | index + 1 =>
    match (pieces source)[index]? with
    | some piece => ⟨Text.utf8Size ((pieces source).take index).flatten, Text.utf8Size piece.dropLineEnding⟩
    | none => ⟨source.utf8Size, 0⟩

end Span

structure Diagnostic where
  summary : String
  help : Option String
  span : Span
  label : String
  deriving DecidableEq, Repr

namespace Diagnostic

def code : String := "sicl::script"

def ofFailure (source : Text) (failure : Failure) : Diagnostic where
  summary := failure.summary
  help := failure.help
  span := Span.ofLine source failure.line
  label := "line " ++ Fault.count failure.line ++ " while " ++ failure.phase.action

end Diagnostic
end Sigil
