import Sigil.Fault

/-!
What ends a program: a fault, and the line on which it arose. A failure is what the user is told of it.
-/
namespace Sigil

inductive Phase where
  | preprocessing
  | executing
  deriving DecidableEq, Repr

def Phase.action : Phase → String
  | preprocessing => "preprocessing this program"
  | executing => "running this program"

structure Report where
  fault : Fault
  line : Nat
  sourceLine : Text
  phase : Phase
  deriving DecidableEq, Repr

structure Failure where
  kind : Kind
  message : String
  help : Option String
  line : Nat
  sourceLine : Text
  phase : Phase
  deriving DecidableEq, Repr

def Report.failure (report : Report) : Failure where
  kind := report.fault.kind
  message := report.fault.message
  help := report.fault.help
  line := report.line
  sourceLine := report.sourceLine
  phase := report.phase

namespace Failure

def summary (failure : Failure) : String := failure.kind.label ++ ": " ++ failure.message

def text (failure : Failure) : String :=
  "An exception occurred while " ++ failure.phase.action ++ "\n  Line " ++ Fault.count failure.line ++ "\n"
    ++ failure.summary

end Failure
end Sigil
