import Sigil.Registry.Basic

/-!
A world with a journal of the host functions that were called, oldest first.
-/
namespace Sigil

structure HostCall where
  module : Text
  name : Text
  args : List Value
  deriving DecidableEq, Repr

structure Journal (ω : Type) where
  world : ω
  calls : List HostCall

namespace HostFunction
variable {ω : Type}

def unrecorded (function : HostFunction ω) : HostFunction (Journal ω) where
  arity := function.arity
  call args journal :=
    let (result, world) := function.call args journal.world
    (result, { journal with world })

/-- Enters the call, whatever its outcome, before it is made. -/
def recorded (module name : Text) (function : HostFunction ω) : HostFunction (Journal ω) where
  arity := function.arity
  call args journal :=
    function.unrecorded.call args { journal with calls := journal.calls ++ [⟨module, name, args⟩] }

end HostFunction

def Registry.journaled {ω : Type} (registry : Registry ω) : Registry (Journal ω) :=
  ⟨registry.modules.mapEntries fun module functions =>
    functions.mapEntries fun name function => function.recorded module name⟩

end Sigil
